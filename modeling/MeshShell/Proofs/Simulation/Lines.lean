import MeshShell.Proofs.Simulation.Moves
import MeshShell.Proofs.Transport.Separation

/-! # The links of a simulated mesh

Links share the endpoints, the ways in which remote shells answer, and the paths
that are going to be found. Each link has its own queue. A teardown puts one more
report into the queue of its link, and nothing gets in after that.
-/
namespace MeshShell.Simulation

namespace Link

variable {k : Link}

/-- A link as it is after it was shut, whether it was shut before or not. -/
def shutDown (k : Link) : Link := if k.shut then k else k.close

theorem report_frame (k : Link) (d : Delivery) :
    ∃ established, (k.report d).2 = { k with established } := by
  cases d with
  | established =>
    by_cases h : k.shut = true
    · exact ⟨k.established, congrArg Prod.snd (if_pos h)⟩
    · exact ⟨true, congrArg Prod.snd (if_neg h)⟩
  | message m => exact ⟨_, rfl⟩
  | closed => exact ⟨_, rfl⟩

theorem reportAll_frame (k : Link) (queue : List Delivery) :
    ∃ established, (k.reportAll queue).2 = { k with established } := by
  induction queue generalizing k with
  | nil => exact ⟨_, rfl⟩
  | cons d rest ih =>
    obtain ⟨up, hd⟩ := k.report_frame d
    obtain ⟨established, hrest⟩ := ih (k.report d).2
    exact ⟨established, hrest.trans (by rw [hd])⟩

theorem queue_deliverAll (k : Link) : k.deliverAll.2.queue = [] := by
  obtain ⟨established, h⟩ := reportAll_frame { k with queue := [] } k.queue
  unfold deliverAll
  rw [h]

theorem shut_deliverAll (k : Link) : k.deliverAll.2.shut = k.shut := by
  obtain ⟨established, h⟩ := reportAll_frame { k with queue := [] } k.queue
  unfold deliverAll
  rw [h]

theorem deliverAll_of_queue (h : k.queue = []) : k.deliverAll = ([], k) := by
  have hsame : { k with queue := [] } = k := by rw [← h]
  unfold deliverAll
  rw [h, hsame]
  rfl

theorem shut_shutDown (k : Link) : k.shutDown.shut = true := by
  unfold shutDown
  split
  · assumption
  · rfl

theorem shutDown_of_shut (h : k.shut = true) : k.shutDown = k := if_pos h

end Link

/-- What the answer of a remote shell makes of a new link. -/
def Behavior.answer : Behavior → Link → Link
  | .accept, k => k.push .established
  | .stall, k => k
  | .refuse, k => k.shutDown

/-- What the links of a mesh share. -/
structure Backdrop where
  stations : List (Destination × Station)
  behavior : String → Behavior
  answerAfter : Option Millis
  answers : List (Millis × Destination)

namespace Backdrop

/-- A mesh without links and remote shells. -/
def mesh (c : Backdrop) : Network := { Network.empty with stations := c.stations }

def ask (c : Backdrop) (now : Millis) (d : Destination) : Backdrop :=
  match c.answerAfter, (c.mesh.station? d).filter (!·.known) with
  | some later, some _ => { c with answers := c.answers ++ [(now + later, d)] }
  | _, _ => c

def announce (c : Backdrop) (d : Destination) : Backdrop :=
  { c with stations := (c.mesh.announce 0 d).stations }

def wake (c : Backdrop) (now : Millis) : Backdrop :=
  let (due, later) := c.answers.partition (·.1 ≤ now)
  due.foldl (fun c (_, d) => c.announce d) { c with answers := later }

/-- How a new link begins, if it can be had. -/
def dial (c : Backdrop) (identity : RemoteIdentity) (aspect : String) : Except TransportError Link :=
  if aspect ≠ shellAspect then
    .error (.linkUnavailable ("no endpoint serves aspect " ++ aspect))
  else
    match c.mesh.owner? identity with
    | none => .error (.linkUnavailable "identity not reachable")
    | some s => .ok ((c.behavior s.remote).answer (Link.new s.remote))

end Backdrop

namespace Network

variable {n : Network} {k : Link} {l : LinkId}

def backdrop (n : Network) : Backdrop :=
  ⟨n.stations, fun name => (n.remote name).behavior, n.answerAfter, n.answers⟩

def layout : Layout Network where
  Common := Backdrop
  Line := Link
  common := backdrop
  line n l := n.links[l]?
  sound _ := True

theorem backdrop_modifyRemote (n : Network) (name : String) {f : Remote → Remote}
    (hf : ∀ r, (f r).behavior = r.behavior) : (n.modifyRemote name f).backdrop = n.backdrop := by
  have hsame : ∀ other, ((n.modifyRemote name f).remote other).behavior = (n.remote other).behavior := by
    intro other
    unfold modifyRemote
    rw [remote_setRemote]
    split
    · subst other
      exact hf _
    · rfl
  unfold backdrop
  simp only [hsame]
  rfl

theorem backdrop_shutLink (n : Network) (l : LinkId) (here : Bool) :
    (n.shutLink l here).backdrop = n.backdrop := by
  have hdetach : ∀ (n : Network) name, (n.detach l name).backdrop = n.backdrop := by
    intro n name
    unfold detach
    split
    · exact backdrop_modifyRemote n name fun _ => rfl
    · rfl
  unfold shutLink
  split
  · rfl
  · dsimp only
    split
    · rfl
    · exact hdetach { n with teardowns := if here then n.teardowns + 1 else n.teardowns } _

def modifying (f : Link → Link) : layout.Local fun l n => n.modifyLink l f where
  effect := f
  sound _ _ := trivial
  common _ _ := rfl
  line l n k := by
    show (n.links.modify l f)[k]? = if k = l then (n.links[k]?).map f else n.links[k]?
    rw [List.getElem?_modify]
    by_cases h : k = l
    · simp [h]
    · simp [h, Ne.symm h]

/-- A link is shut from here or from the other side. -/
def shutting (here : Bool) : layout.Local fun l n => n.shutLink l here where
  effect := Link.shutDown
  sound _ _ := trivial
  common l n := n.backdrop_shutLink l here
  line l n k := by
    have hline := (modifying Link.shutDown).line l n k
    show (n.shutLink l here).links[k]? = _
    rw [links_shutLink]
    exact hline

/-- The remote shell says something on a link. -/
def saying (m : Message) : layout.Local fun l n => n.modifyLink l (·.push (.message m)) :=
  modifying _

theorem emit_eq {name : String} (h : n.slot name = some l) (m : Message) :
    n.emit name m = n.modifyLink l (·.push (.message m)) := by
  unfold slot at h
  simp [emit, h]

def sending (m : Message) : layout.Local fun l n => (n.send l m).2 where
  effect := id
  sound _ _ := trivial
  common l n := by
    unfold send
    split
    · rfl
    · exact backdrop_modifyRemote n _ fun _ => rfl
  line l n k := by
    have hlinks : (n.send l m).2.links = n.links := by
      unfold send
      split <;> rfl
    show (n.send l m).2.links[k]? = if k = l then (n.links[k]?).map id else n.links[k]?
    simp [hlinks]

/-- A change of the mesh that has nothing to do with links. -/
def away {f : Network → Network} (shared : Backdrop → Backdrop) (hlinks : ∀ n, (f n).links = n.links)
    (hshared : ∀ n, (f n).backdrop = shared n.backdrop) : layout.Uniform f where
  shared := shared
  effect := id
  sound _ := trivial
  common := hshared
  line n k := by
    show (f n).links[k]? = (n.links[k]?).map id
    simp [hlinks]

def delivering : layout.Uniform fun n => n.deliver.2 where
  shared := id
  effect k := k.deliverAll.2
  sound _ := trivial
  common _ := rfl
  line n l := deliverFrom_links 0 n.links l

theorem backdrop_requestPath (now : Millis) (d : Destination) (n : Network) :
    (n.requestPath now d).backdrop = n.backdrop.ask now d := by
  have hstation : n.backdrop.mesh.station? d = n.station? d := rfl
  have hbefore : ({ n with requests := n.requests ++ [d] } : Network).station? d = n.station? d := rfl
  unfold requestPath Backdrop.ask
  dsimp only
  rw [hstation, hbefore]
  cases ha : n.answerAfter with
  | none => simp [backdrop, ha, remote]
  | some later => cases hf : (n.station? d).filter (!·.known) <;> simp [backdrop, ha, remote]

theorem links_requestPath (now : Millis) (d : Destination) (n : Network) :
    (n.requestPath now d).links = n.links := by
  unfold requestPath
  dsimp only
  split <;> rfl

theorem backdrop_announce (now : Millis) (d : Destination) (n : Network) :
    (n.announce now d).backdrop = n.backdrop.announce d := by
  have hstation : n.backdrop.mesh.station? d = n.station? d := rfl
  unfold Backdrop.announce announce
  rw [hstation]
  cases n.station? d <;> rfl

theorem links_announce (now : Millis) (d : Destination) (n : Network) :
    (n.announce now d).links = n.links := by
  unfold announce
  cases n.station? d <;> rfl

theorem backdrop_wake (now : Millis) (n : Network) : (n.wake now).backdrop = n.backdrop.wake now := by
  suffices hall : ∀ (due : List (Millis × Destination)) (n : Network),
      (due.foldl (fun n p => n.announce p.1 p.2) n).backdrop =
        due.foldl (fun c p => c.announce p.2) n.backdrop from hall _ _
  intro due
  induction due with
  | nil => exact fun _ => rfl
  | cons p rest ih =>
    intro n
    rw [List.foldl_cons, List.foldl_cons, ih, backdrop_announce]

theorem links_wake (now : Millis) (n : Network) : (n.wake now).links = n.links := by
  suffices hall : ∀ (due : List (Millis × Destination)) (n : Network),
      (due.foldl (fun n p => n.announce p.1 p.2) n).links = n.links from hall _ _
  intro due
  induction due with
  | nil => exact fun _ => rfl
  | cons p rest ih => exact fun n => (ih _).trans (links_announce p.1 p.2 n)

theorem openLink_error {identity : RemoteIdentity} {aspect : String} {e : TransportError}
    (h : n.backdrop.dial identity aspect = .error e) : n.openLink identity aspect = (.error e, n) := by
  have howner : n.backdrop.mesh.owner? identity = n.owner? identity := rfl
  unfold Backdrop.dial at h
  unfold openLink
  rw [howner] at h
  split at h
  · cases h
    simp [*]
  · rename_i haspect
    rw [if_neg haspect]
    cases ho : n.owner? identity with
    | none =>
      rw [ho] at h
      cases h
      rfl
    | some s =>
      rw [ho] at h
      cases h

theorem answerLink_eq (n : Network) (l : LinkId) (name : String) :
    (n.answerLink l name).backdrop = n.backdrop ∧
      (n.answerLink l name).links = n.links.modify l (n.remote name).behavior.answer := by
  have hattached : (n.modifyRemote name fun r => { r with link := some l }).backdrop = n.backdrop :=
    n.backdrop_modifyRemote name fun _ => rfl
  unfold answerLink
  cases (n.remote name).behavior with
  | accept => exact ⟨hattached, rfl⟩
  | stall => exact ⟨hattached, (List.modify_id l n.links).symm⟩
  | refuse => exact ⟨n.backdrop_shutLink l false, n.links_shutLink l false⟩

theorem openLink_ok {identity : RemoteIdentity} {aspect : String}
    (h : n.backdrop.dial identity aspect = .ok k) :
    ∃ n', n.openLink identity aspect = (.ok n.links.length, n') ∧ n'.backdrop = n.backdrop ∧
      n'.links = n.links ++ [k] := by
  have howner : n.backdrop.mesh.owner? identity = n.owner? identity := rfl
  unfold Backdrop.dial at h
  rw [howner] at h
  unfold openLink
  split at h
  · cases h
  · rename_i haspect
    rw [if_neg haspect]
    cases ho : n.owner? identity with
    | none =>
      rw [ho] at h
      cases h
    | some s =>
      rw [ho] at h
      obtain rfl := Except.ok.inj h
      let opened : Network := { n with links := n.links ++ [Link.new s.remote] }
      obtain ⟨hbackdrop, hlinks⟩ := opened.answerLink_eq n.links.length s.remote
      exact ⟨_, rfl, hbackdrop, hlinks.trans (modify_append_last _ _ _)⟩

theorem line_of_links {n' : Network} (h : n'.links = n.links ++ [k]) (l : LinkId) :
    n'.links[l]? = if l = n.links.length then some k else n.links[l]? := by
  rw [h]
  rcases Nat.lt_trichotomy l n.links.length with hlt | rfl | hgt
  · rw [if_neg (Nat.ne_of_lt hlt), List.getElem?_append_left hlt]
  · simp
  · rw [if_neg (Nat.ne_of_gt hgt), List.getElem?_eq_none (by simpa using Nat.succ_le_of_lt hgt),
      List.getElem?_eq_none (Nat.le_of_lt hgt)]

theorem isOk_channel (h : n.links[l]? = some k) : (n.channel l).isOk = k.isUsable := by
  unfold channel
  rw [h, Option.any_some]
  cases k.isUsable <;> rfl

theorem fst_send (h : n.links[l]? = some k) (m : Message) :
    (n.send l m).1 = if k.shut then .error .channelClosed else .ok () := by
  unfold send
  rw [h, Option.filter_some]
  cases k.shut <;> rfl

theorem deliver_line (h : n.links[l]? = some k) :
    (n.deliver.1.filter (·.1 = l)).map (·.2) = k.deliverAll.1 := by
  have hreports := deliverFrom_reports 0 n.links l
  rw [h, Nat.zero_add] at hreports
  exact hreports

def separation : Separation Network where
  toLayout := layout
  hasPath d c := c.mesh.hasPath d
  hasPath_eq _ _ := rfl
  identity d c := c.mesh.recallIdentity d
  identity_eq _ _ := rfl
  dial _ identity aspect c := c.dial identity aspect
  refused {_ _ _ n _} h := ⟨n, openLink_error h, .refl n⟩
  opened {_ _ _ n _} _ h := by
    obtain ⟨n', hopen, hbackdrop, hlinks⟩ := openLink_ok h
    exact ⟨n.links.length, n', hopen, List.getElem?_eq_none (Nat.le_refl _), trivial, hbackdrop,
      line_of_links hlinks⟩
  channel := Link.isUsable
  channel_eq := isOk_channel
  takes _ k := if k.shut then .error .channelClosed else .ok ()
  takes_eq h := fst_send h _
  handling := modifying _
  sending := sending
  tearing := shutting true
  asking now d := away (·.ask now d) (links_requestPath now d) (backdrop_requestPath now d)
  waking now := away (·.wake now) (links_wake now) (backdrop_wake now)
  delivering := delivering
  waiting k := k.deliverAll.1
  deliver_eq := deliver_line
  delivering_shared _ := rfl
  still k := k.queue = []
  mute k := k.shut = true
  waiting_still h := congrArg Prod.fst (Link.deliverAll_of_queue h)
  delivering_still h := congrArg Prod.snd (Link.deliverAll_of_queue h)
  still_delivering := Link.queue_deliverAll
  mute_delivering {k} h := k.shut_deliverAll.trans h
  handling_settling := ⟨.inl, id, fun _ h => h⟩
  sending_settling _ := ⟨.inl, id, fun _ h => h⟩
  tearing_settling :=
    { calls := fun {k} _ => .inr k.shut_shutDown
      ends := fun {k} _ => k.shut_shutDown
      rest := fun h hstill => (congrArg Link.queue (Link.shutDown_of_shut h)).trans hstill }

end Network

end MeshShell.Simulation
