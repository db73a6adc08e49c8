import MeshShell.Proofs.Simulation.Moves
import Mathlib.Order.Nat

/-! # Actions on links

Remote shells and sessions open links, talk on them and shut them, and what
there is to report waits for any time before it is delivered. Every action moves
each of the links, and takes a remote shell off its link only to shut it.
-/
namespace MeshShell.Simulation

namespace Network

variable {n : Network}

theorem links_openLink (identity : RemoteIdentity) (aspect : String) (n : Network) :
    (n.openLink identity aspect).2.links = n.links ∨
      ∃ k told untold, (n.openLink identity aspect).2.links = n.links ++ [k] ∧
        Course k [] [] told untold ∧ told.callbacks = [] := by
  unfold openLink
  split
  · exact .inl rfl
  · split
    · exact .inl rfl
    · rename_i s _
      refine .inr ?_
      dsimp only
      unfold answerLink
      split
      · refine ⟨_, _, _, ?_, course_accepted s.remote, rfl⟩
        exact modify_append_last n.links _ _
      · exact ⟨_, _, _, rfl, course_new s.remote, rfl⟩
      · refine ⟨_, _, _, ?_, (course_new s.remote).close rfl, rfl⟩
        rw [links_shutLink]
        exact modify_append_last n.links _ _

/-- A remote shell that does not stay on its link after an opening is on the new link. -/
theorem slot_openLink (identity : RemoteIdentity) (aspect : String)
    (hn : ∀ name l, n.slot name = some l → l < n.links.length) (name : String) :
    (n.openLink identity aspect).2.slot name = n.slot name ∨
      (n.openLink identity aspect).2.slot name = some n.links.length ∧
        (n.openLink identity aspect).2.links.length = n.links.length + 1 := by
  unfold openLink
  split
  · exact .inl rfl
  · split
    · exact .inl rfl
    · rename_i s _
      dsimp only
      let opened : Network := { n with links := n.links ++ [Link.new s.remote] }
      let attached := opened.modifyRemote s.remote fun r => { r with link := some n.links.length }
      have hslot : attached.slot name = n.slot name ∨ attached.slot name = some n.links.length := by
        rw [slot_modifyRemote]
        split
        · exact .inr rfl
        · exact .inl rfl
      have hlength : opened.links.length = n.links.length + 1 := by simp [opened]
      unfold answerLink
      split
      · refine hslot.imp_right fun h => ⟨h, ?_⟩
        exact (List.length_modify ..).trans hlength
      · exact hslot.imp_right fun h => ⟨h, hlength⟩
      · rcases slot_shutLink opened n.links.length false name with h | ⟨h, -⟩
        · exact .inl h
        · exact absurd (hn name _ h) (Nat.lt_irrefl _)

theorem teardowns_openLink (identity : RemoteIdentity) (aspect : String) (n : Network) :
    (n.openLink identity aspect).2.teardowns = n.teardowns := by
  unfold openLink
  split
  · rfl
  · split
    · rfl
    · dsimp only
      unfold answerLink
      split
      · rfl
      · rfl
      · rw [teardowns_shutLink]
        simp

theorem links_emit (name : String) (m : Message) (n : Network) : (n.emit name m).links =
    ((n.slot name).map fun l => n.links.modify l (·.push (.message m))).getD n.links := by
  unfold emit slot
  cases (n.remote name).link <;> rfl

theorem links_dropLink (name : String) (n : Network) : (n.dropLink name).links =
    ((n.slot name).map fun l => n.links.modify l fun k => if k.shut then k else k.close).getD
      n.links := by
  unfold dropLink slot
  cases (n.remote name).link with
  | none => rfl
  | some l => exact links_shutLink _ l false

end Network

/-- A change of the mesh that has nothing to do with links. -/
structure Aside where
  apply : Network → Network
  links_apply : ∀ n, (apply n).links = n.links
  slot_apply : ∀ n name, (apply n).slot name = n.slot name
  teardowns_apply : ∀ n, (apply n).teardowns = n.teardowns

inductive Action
  | openLink (identity : RemoteIdentity) (aspect : String)
  /-- A remote shell talks on its link. -/
  | emit (name : String) (m : Message)
  /-- A message of the remote shell comes to a link on which it talked. -/
  | say (l : LinkId) (m : Message)
  /-- A remote shell shuts its link. -/
  | dropLink (name : String)
  /-- A link on which a remote shell talked is shut from there. -/
  | hangUp (l : LinkId)
  | teardown (l : LinkId)
  | channel (l : LinkId)
  /-- Somebody who has the channel of a link wants its messages. -/
  | handle (l : LinkId) (name : String)
  | deliver (l : LinkId)
  | deliverAll
  | aside (change : Aside)

/-- A mesh, and the links whose channels somebody has. -/
structure Wire where
  network : Network
  channels : List LinkId

def act : Action → Wire → Wire
  | .openLink identity aspect, u => { u with network := (u.network.openLink identity aspect).2 }
  | .emit name m, u => { u with network := u.network.emit name m }
  | .say l m, u => { u with network := u.network.modifyLink l (·.push (.message m)) }
  | .dropLink name, u => { u with network := u.network.dropLink name }
  | .hangUp l, u => { u with network := u.network.shutLink l false }
  | .teardown l, u => { u with network := u.network.shutLink l true }
  | .channel l, u =>
    match u.network.channel l with
    | .ok _ => { u with channels := l :: u.channels }
    | .error _ => u
  | .handle l name, u =>
    if l ∈ u.channels then { u with network := u.network.handleBy name l } else u
  | .deliver l, u => { u with network := u.network.modifyLink l (·.deliver.2) }
  | .deliverAll, u => { u with network := u.network.deliver.2 }
  | .aside change, u => { u with network := change.apply u.network }

namespace Wire

def isOpen (u : Wire) (l : LinkId) : Bool := (u.network.links[l]?).any (!·.shut)

def isShut (u : Wire) (l : LinkId) : Bool := (u.network.links[l]?).any (·.shut)

/-- Somebody wants the messages of a link. -/
def isAwaited (u : Wire) (l : LinkId) : Bool := (u.network.links[l]?).any (·.handler.isSome)

/-- What is put on a link while it is open. -/
def said (u : Wire) (l : LinkId) : Action → List Message
  | .emit name m => if u.network.slot name = some l ∧ u.isOpen l then [m] else []
  | .say l' m => if l' = l ∧ u.isOpen l then [m] else []
  | _ => []

def reports (u : Wire) : Action → List (LinkId × Callback)
  | .deliver l => ((u.network.links[l]?).bind (·.deliver.1)).toList.map (l, ·)
  | .deliverAll => u.network.deliver.1
  | _ => []

def reportsOf (u : Wire) (l : LinkId) (a : Action) : List Callback :=
  ((u.reports a).filter (·.1 = l)).map (·.2)

/-- The link that an action shuts. -/
def shuts (u : Wire) : Action → Option LinkId
  | .dropLink name => u.network.slot name
  | .hangUp l => some l
  | .teardown l => some l
  | _ => none

/-- The link that is torn down from this side, unless it is shut already. -/
def tears (u : Wire) : Action → Option LinkId
  | .teardown l => if u.isOpen l then some l else none
  | _ => none

end Wire

variable {u : Wire} {k : Link} {l : LinkId}

theorem moves_modify {links : List Link} (hk : links[l]? = some k) {l' : LinkId} {f : Link → Link}
    {said : List Message} {reports : List Callback} (hsame : l' = l → k.Moves said reports (f k))
    (hother : l' ≠ l → said = [] ∧ reports = []) :
    ∃ k', (links.modify l' f)[l]? = some k' ∧ k.Moves said reports k' := by
  rw [List.getElem?_modify, hk]
  by_cases hl : l' = l
  · exact ⟨f k, by simp [hl], hsame hl⟩
  · obtain ⟨rfl, rfl⟩ := hother hl
    exact ⟨k, by simp [hl], .rest k⟩

theorem moves_said (hk : u.network.links[l]? = some k) (m : Message) :
    k.Moves (if u.isOpen l then [m] else []) [] (k.push (.message m)) := by
  have hopen : u.isOpen l = !k.shut := by simp [Wire.isOpen, hk]
  have hsaid := Link.Moves.said k m
  cases hshut : k.shut <;> simpa [hopen, hshut] using hsaid

theorem moves_shut (hk : u.network.links[l]? = some k) (l' : LinkId) :
    ∃ k', (u.network.links.modify l' fun k => if k.shut then k else k.close)[l]? = some k' ∧
      k.Moves [] [] k' :=
  moves_modify hk (fun _ => .shut k) fun _ => ⟨rfl, rfl⟩

theorem moves_openLink (hk : u.network.links[l]? = some k) (identity : RemoteIdentity)
    (aspect : String) : (u.network.openLink identity aspect).2.links[l]? = some k := by
  rcases Network.links_openLink identity aspect u.network with h | ⟨k', _, _, h, -⟩
  · rwa [h]
  · rw [h, List.getElem?_append_left (List.getElem?_eq_some_iff.mp hk).1, hk]

/-- An action moves a link that is there. -/
theorem moves_act (hk : u.network.links[l]? = some k) (hup : l ∈ u.channels → k.established = true)
    (a : Action) : ∃ k', (act a u).network.links[l]? = some k' ∧
      k.Moves (u.said l a) (u.reportsOf l a) k' := by
  cases a with
  | openLink identity aspect => exact ⟨k, moves_openLink hk identity aspect, .rest k⟩
  | emit name m =>
    show ∃ k', (u.network.emit name m).links[l]? = some k' ∧ k.Moves (u.said l _) [] k'
    rw [Network.links_emit]
    simp only [Wire.said]
    cases hslot : u.network.slot name with
    | none => exact ⟨k, hk, by simpa using Link.Moves.rest k⟩
    | some l' =>
      refine moves_modify hk (fun hl => ?_) fun hl => ⟨by simp [hl], rfl⟩
      simpa [hl] using moves_said hk m
  | say l' m =>
    have hquiet : u.reportsOf l (.say l' m) = [] := rfl
    rw [hquiet]
    refine moves_modify hk (fun hl => ?_) fun hl => ⟨by simp [Wire.said, hl], rfl⟩
    simpa [Wire.said, hl] using moves_said hk m
  | dropLink name =>
    show ∃ k', (u.network.dropLink name).links[l]? = some k' ∧ _
    rw [Network.links_dropLink]
    cases u.network.slot name with
    | none => exact ⟨k, hk, .rest k⟩
    | some l' => exact moves_shut hk l'
  | hangUp l' =>
    show ∃ k', (u.network.shutLink l' false).links[l]? = some k' ∧ _
    rw [Network.links_shutLink]
    exact moves_shut hk l'
  | teardown l' =>
    show ∃ k', (u.network.shutLink l' true).links[l]? = some k' ∧ _
    rw [Network.links_shutLink]
    exact moves_shut hk l'
  | channel l' =>
    refine ⟨k, ?_, .rest k⟩
    simp only [act]
    split <;> exact hk
  | handle l' name =>
    simp only [act]
    split
    · rename_i hl'
      exact moves_modify hk (fun hl => .handled k name (hup (hl ▸ hl'))) fun _ => ⟨rfl, rfl⟩
    · exact ⟨k, hk, .rest k⟩
  | deliver l' =>
    refine moves_modify hk (fun hl => ?_) fun hl => ⟨rfl, ?_⟩
    · subst hl
      simpa [Wire.said, Wire.reportsOf, Wire.reports, hk, List.filter_map, Function.comp_def] using
        Link.Moves.told k
    · simp [Wire.reportsOf, Wire.reports, List.filter_map, Function.comp_def, hl]
  | deliverAll =>
    refine ⟨k.deliverAll.2, ?_, ?_⟩
    · refine (Network.deliverFrom_links 0 u.network.links l).trans ?_
      rw [hk]
      rfl
    · have hreports := Network.deliverFrom_reports 0 u.network.links l
      rw [Nat.zero_add, hk] at hreports
      have heq : u.reportsOf l .deliverAll = k.deliverAll.1 := hreports
      rw [heq]
      exact moves_deliverAll k
  | aside change =>
    exact ⟨k, by rw [act, change.links_apply, hk], .rest k⟩

theorem length_act (u : Wire) (a : Action) :
    (act a u).network.links.length = u.network.links.length ∨
      ∃ identity aspect, a = .openLink identity aspect := by
  have hshut : ∀ l here, (u.network.shutLink l here).links.length = u.network.links.length := by
    intro l here
    rw [Network.links_shutLink, List.length_modify]
  cases a with
  | openLink identity aspect => exact .inr ⟨identity, aspect, rfl⟩
  | emit name m =>
    refine .inl ?_
    show (u.network.emit name m).links.length = _
    rw [Network.links_emit]
    cases u.network.slot name with
    | none => rfl
    | some l => exact List.length_modify ..
  | say l m => exact .inl (List.length_modify ..)
  | dropLink name =>
    refine .inl ?_
    show (u.network.dropLink name).links.length = _
    rw [Network.links_dropLink]
    cases u.network.slot name with
    | none => rfl
    | some l => exact List.length_modify ..
  | hangUp l => exact .inl (hshut l false)
  | teardown l => exact .inl (hshut l true)
  | channel l =>
    refine .inl ?_
    simp only [act]
    split <;> rfl
  | handle l name =>
    refine .inl ?_
    simp only [act]
    split
    · exact List.length_modify ..
    · rfl
  | deliver l => exact .inl (List.length_modify ..)
  | deliverAll => exact .inl (Network.deliverFrom_length 0 u.network.links)
  | aside change => exact .inl (by rw [act, change.links_apply])

theorem opened_act (hnone : u.network.links[l]? = none) (a : Action) :
    (act a u).network.links[l]? = none ∨ ∃ k told untold,
      (act a u).network.links[l]? = some k ∧ Course k [] [] told untold ∧ told.callbacks = [] := by
  have hle : u.network.links.length ≤ l := List.getElem?_eq_none_iff.mp hnone
  rcases length_act u a with h | ⟨identity, aspect, rfl⟩
  · exact .inl (List.getElem?_eq_none (h.trans_le hle))
  · show (u.network.openLink identity aspect).2.links[l]? = none ∨ _
    rcases Network.links_openLink identity aspect u.network with h | ⟨k, told, untold, h, hk, ht⟩
    · exact .inl (by rwa [h])
    · by_cases hl : l = u.network.links.length
      · exact .inr ⟨k, told, untold, by rw [act, h, hl]; simp, hk, ht⟩
      · refine .inl (List.getElem?_eq_none ?_)
        rw [h, List.length_append, List.length_singleton]
        exact Nat.lt_of_le_of_ne hle (Ne.symm hl)

theorem silent_act (hnone : u.network.links[l]? = none) (a : Action) :
    u.said l a = [] ∧ u.reportsOf l a = [] := by
  have hopen : u.isOpen l = false := by simp [Wire.isOpen, hnone]
  cases a with
  | emit name m => exact ⟨by simp [Wire.said, hopen], rfl⟩
  | say l' m => exact ⟨by simp [Wire.said, hopen], rfl⟩
  | deliver l' =>
    refine ⟨rfl, ?_⟩
    by_cases hl : l' = l
    · simp [Wire.reportsOf, Wire.reports, hl, hnone]
    · simp [Wire.reportsOf, Wire.reports, List.filter_map, Function.comp_def, hl]
  | deliverAll =>
    have hreports := Network.deliverFrom_reports 0 u.network.links l
    rw [Nat.zero_add, hnone] at hreports
    exact ⟨rfl, hreports⟩
  | _ => exact ⟨rfl, rfl⟩

/-- Nobody gets the channel of a link that is not established. -/
theorem channels_act {a : Action} (hl : l ∈ (act a u).channels) :
    l ∈ u.channels ∨ ∃ k, u.network.links[l]? = some k ∧ k.established = true := by
  cases a with
  | channel l' =>
    simp only [act] at hl
    split at hl
    · rename_i hchannel
      rcases List.mem_cons.mp hl with rfl | hl
      · unfold Network.channel at hchannel
        split at hchannel
        · rename_i husable
          cases hk : u.network.links[l]? with
          | none => simp [hk] at husable
          | some k =>
            rw [hk] at husable
            exact .inr ⟨k, rfl, (Bool.and_eq_true_iff.mp husable).1⟩
        · simp at hchannel
      · exact .inl hl
    · exact .inl hl
  | handle l' name =>
    simp only [act] at hl
    split at hl <;> exact .inl hl
  | _ => exact .inl hl

/-- All remote shells talk on links that were opened. -/
def Wire.Attached (u : Wire) : Prop :=
  ∀ name l, u.network.slot name = some l → l < u.network.links.length

/-- A remote shell stays on its link until that link is shut, or until another one is opened. -/
theorem slot_act (hu : u.Attached) (a : Action) (name : String) :
    (act a u).network.slot name = u.network.slot name ∨
      (∃ l, u.network.slot name = some l ∧ u.shuts a = some l ∧
        (act a u).network.slot name = none) ∨
      (act a u).network.slot name = some u.network.links.length ∧
        (act a u).network.links.length = u.network.links.length + 1 := by
  cases a with
  | openLink identity aspect =>
    exact (Network.slot_openLink identity aspect hu name).imp_right .inr
  | emit name' m =>
    refine .inl ?_
    show (u.network.emit name' m).slot name = _
    unfold Network.emit
    split <;> rfl
  | say l m => exact .inl rfl
  | dropLink name' =>
    simp only [act, Network.dropLink]
    cases hl : (u.network.remote name').link with
    | none => exact .inl rfl
    | some l =>
      have hshuts : u.shuts (.dropLink name') = some l := hl
      let left := u.network.modifyRemote name' fun r => { r with link := none }
      have hleft : left.slot name = if name = name' then none else u.network.slot name :=
        Network.slot_modifyRemote u.network name' name _
      have hshut := left.slot_shutLink l false name
      by_cases hname : name = name'
      · rw [hleft, if_pos hname] at hshut
        have hnone : (left.shutLink l false).slot name = none :=
          hshut.elim id fun h => nomatch h.1
        exact .inr (.inl ⟨l, hname ▸ hl, hshuts, hnone⟩)
      · rw [hleft, if_neg hname] at hshut
        exact hshut.imp_right fun h => .inl ⟨l, h.1, hshuts, h.2⟩
  | hangUp l =>
    exact (u.network.slot_shutLink l false name).imp_right fun h => .inl ⟨l, h.1, rfl, h.2⟩
  | teardown l =>
    exact (u.network.slot_shutLink l true name).imp_right fun h => .inl ⟨l, h.1, rfl, h.2⟩
  | channel l =>
    refine .inl ?_
    simp only [act]
    split <;> rfl
  | handle l name' =>
    refine .inl ?_
    simp only [act]
    split <;> rfl
  | deliver l => exact .inl rfl
  | deliverAll => exact .inl rfl
  | aside change => exact .inl (change.slot_apply u.network name)

theorem attached_act (hu : u.Attached) (a : Action) : (act a u).Attached := by
  intro name l hl
  have hlength : u.network.links.length ≤ (act a u).network.links.length := by
    rcases length_act u a with h | ⟨identity, aspect, rfl⟩
    · exact h.ge
    · show _ ≤ (u.network.openLink identity aspect).2.links.length
      rcases Network.links_openLink identity aspect u.network with h | ⟨k, _, _, h, -⟩
      · exact (congrArg List.length h).ge
      · rw [h, List.length_append]
        exact Nat.le_add_right _ _
  rcases slot_act hu a name with h | ⟨_, _, _, h⟩ | ⟨h, hgrown⟩
  · exact (hu name l (h ▸ hl)).trans_le hlength
  · rw [h] at hl
    nomatch hl
  · rw [h] at hl
    rw [hgrown, ← Option.some.inj hl]
    exact Nat.lt_succ_self _

/-- The teardowns of this side are counted. -/
theorem teardowns_act (u : Wire) (a : Action) :
    (act a u).network.teardowns = u.network.teardowns + (u.tears a).toList.length := by
  cases a with
  | openLink identity aspect => exact Network.teardowns_openLink identity aspect u.network
  | emit name m =>
    show (u.network.emit name m).teardowns = _
    unfold Network.emit
    split <;> rfl
  | say l m => rfl
  | dropLink name =>
    show (u.network.dropLink name).teardowns = _
    unfold Network.dropLink
    split
    · rfl
    · rw [Network.teardowns_shutLink]
      simp [Network.modifyRemote, Network.setRemote, Wire.tears]
  | hangUp l =>
    show (u.network.shutLink l false).teardowns = _
    rw [Network.teardowns_shutLink]
    simp [Wire.tears]
  | teardown l =>
    show (u.network.shutLink l true).teardowns = _
    rw [Network.teardowns_shutLink]
    by_cases hopen : (u.network.links[l]?).any (!·.shut) = true <;>
      simp [Wire.tears, Wire.isOpen, hopen]
  | channel l =>
    simp only [act]
    split <;> rfl
  | handle l name =>
    simp only [act]
    split <;> rfl
  | deliver l => rfl
  | deliverAll => rfl
  | aside change => exact change.teardowns_apply u.network

end MeshShell.Simulation
