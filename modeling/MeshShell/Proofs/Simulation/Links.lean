import MeshShell.Proofs.Run
import MeshShell.Proofs.Simulation.Wire

/-! # The protocol of a link

However the actions of both sides and the deliveries follow one another, what is
reported of a link comes in one order, and no message that was put on it while
somebody wanted its messages is lost.
-/
namespace MeshShell.Simulation

variable {u : Wire} {hist : List (Wire × Action)} {l : LinkId}

def seen (l : LinkId) (hist : List (Wire × Action)) : List Callback :=
  hist.flatMap fun (u, a) => u.reportsOf l a

/-- The messages that are put on a link while it is open. -/
def spoken (l : LinkId) (hist : List (Wire × Action)) : List Message :=
  hist.flatMap fun (u, a) => u.said l a

/-- Those for which there is no handler when they are put on the link. -/
def early (l : LinkId) (hist : List (Wire × Action)) : List Message :=
  hist.flatMap fun (u, a) => if u.isAwaited l then [] else u.said l a

/-- Those for which there is a handler when they are put on the link. -/
def late (l : LinkId) (hist : List (Wire × Action)) : List Message :=
  hist.flatMap fun (u, a) => if u.isAwaited l then u.said l a else []

/-- The messages that reach a handler. -/
def heard (callbacks : List Callback) : List Message :=
  callbacks.filterMap fun
    | .message m => some m
    | _ => none

/-- The links that are torn down from this side while they are open. -/
def torn (hist : List (Wire × Action)) : List LinkId := hist.filterMap fun (u, a) => u.tears a

theorem spoken_append (l : LinkId) (hist later : List (Wire × Action)) :
    spoken l (hist ++ later) = spoken l hist ++ spoken l later := List.flatMap_append

theorem early_append (l : LinkId) (hist later : List (Wire × Action)) :
    early l (hist ++ later) = early l hist ++ early l later := List.flatMap_append

theorem late_append (l : LinkId) (hist later : List (Wire × Action)) :
    late l (hist ++ later) = late l hist ++ late l later := List.flatMap_append

@[simp] theorem heard_callbacks (told : Tale) : heard told.callbacks = told.messages := by
  obtain ⟨opening, messages, ending⟩ := told
  have hmessages : heard (messages.map (Delivery.callback ∘ Delivery.message)) = messages := by
    rw [heard, List.filterMap_map]
    exact List.filterMap_some
  cases opening <;> cases ending <;>
    simpa [heard, Tale.callbacks, Tale.deliveries, Delivery.callback] using hmessages

/-- What a link shows agrees with what was seen of it and said on it. -/
inductive Wire.Shows (u : Wire) (l : LinkId) : List Callback → List Message → List Message → Prop
  | ahead : u.network.links[l]? = none → l ∉ u.channels → u.Shows l [] [] []
  | opened {k : Link} {early late : List Message} {told untold : Tale} :
      u.network.links[l]? = some k → (l ∈ u.channels → k.established = true) →
      Course k early late told untold → u.Shows l told.callbacks early late

theorem shows_act {seen : List Callback} {early late : List Message} (h : u.Shows l seen early late)
    (a : Action) : (act a u).Shows l (seen ++ u.reportsOf l a)
      (early ++ if u.isAwaited l then [] else u.said l a)
      (late ++ if u.isAwaited l then u.said l a else []) := by
  cases h with
  | ahead hnone hchannel =>
    obtain ⟨hsaid, hreports⟩ := silent_act hnone a
    have hchannel' : l ∉ (act a u).channels := by
      intro hl
      rcases channels_act hl with hl | ⟨k, hk, -⟩
      · exact hchannel hl
      · simp [hnone] at hk
    rw [hsaid, hreports]
    rcases opened_act hnone a with h | ⟨k, told, untold, hk, hcourse, htold⟩
    · simpa using Wire.Shows.ahead h hchannel'
    · simpa [htold] using Wire.Shows.opened hk (fun hl => absurd hl hchannel') hcourse
  | @opened k _ _ told untold hk hup hcourse =>
    obtain ⟨k', hk', hmoves⟩ := moves_act hk hup a
    obtain ⟨told', untold', hcourse', htold⟩ := hcourse.moves hmoves
    have hup' : l ∈ (act a u).channels → k'.established = true := by
      intro hl
      refine hmoves.established_of_established ?_
      rcases channels_act hl with hl | ⟨k₀, hk₀, hup₀⟩
      · exact hup hl
      · rwa [Option.some.inj (hk.symm.trans hk₀)]
    have hawaited : u.isAwaited l = k.handler.isSome := by simp [Wire.isAwaited, hk]
    have hnext := Wire.Shows.opened hk' hup' hcourse'
    rw [← htold, hawaited]
    cases hhandler : k.handler <;> simpa [hhandler] using hnext

theorem Wire.Shows.late_eq_nil {seen : List Callback} {early late : List Message}
    (h : u.Shows l seen early late) (hnone : u.isAwaited l = false) : late = [] := by
  cases h with
  | ahead => rfl
  | @opened k _ _ _ _ hk _ hcourse =>
    refine (hcourse.unwanted ?_).2
    simpa [Wire.isAwaited, hk] using hnone

/-- A mesh on which nothing is going on. -/
def idle : Wire := ⟨.empty, []⟩

theorem shows_of_run (h : Run act idle hist u) (l : LinkId) :
    u.Shows l (seen l hist) (early l hist) (late l hist) := by
  induction h with
  | nil => exact .ahead rfl (by simp [idle])
  | snoc a _ ih => simpa [seen, early, late] using shows_act ih a

theorem spoken_eq (h : Run act idle hist u) (l : LinkId) :
    spoken l hist = early l hist ++ late l hist := by
  induction h with
  | nil => rfl
  | @snoc hist u a hr ih =>
    have hlate := (shows_of_run hr l).late_eq_nil
    simp only [spoken, early, late, List.flatMap_append, List.flatMap_singleton] at ih hlate ⊢
    cases hawaited : u.isAwaited l with
    | true => simp [ih]
    | false => simp [ih, hlate hawaited]

theorem Wire.Shows.isShut_act {seen : List Callback} {early late : List Message}
    (h : u.Shows l seen early late) (hshut : u.isShut l = true) (a : Action) :
    (act a u).isShut l = true ∧ u.said l a = [] ∧ .established ∉ u.reportsOf l a := by
  cases h with
  | ahead hnone => simp [Wire.isShut, hnone] at hshut
  | @opened k _ _ _ _ hk hup _ =>
    obtain ⟨k', hk', hmoves⟩ := moves_act hk hup a
    have hshut : k.shut = true := by simpa [Wire.isShut, hk] using hshut
    refine ⟨?_, hmoves.silent hshut, hmoves.not_established hshut⟩
    simpa [Wire.isShut, hk'] using hmoves.shut_of_shut hshut

theorem Wire.Shows.isOpen_of_established {seen : List Callback} {early late : List Message}
    (h : u.Shows l seen early late) {a : Action} (hm : .established ∈ u.reportsOf l a) :
    u.isOpen l = true := by
  by_contra hopen
  cases h with
  | ahead hnone => simp [(silent_act hnone a).2] at hm
  | opened hk hup hcourse =>
    have hshut : u.isShut l = true := by simpa [Wire.isShut, Wire.isOpen, hk] using hopen
    exact ((Wire.Shows.opened hk hup hcourse).isShut_act hshut a).2.2 hm

theorem spoken_of_isShut {start : Wire} {before : List (Wire × Action)} (hs : Run act idle before start)
    (hshut : start.isShut l = true) (h : Run act start hist u) :
    spoken l hist = [] ∧ u.isShut l = true := by
  induction h with
  | nil => exact ⟨rfl, hshut⟩
  | snoc a hr ih =>
    obtain ⟨hspoken, hshut⟩ := ih
    obtain ⟨hnext, hsaid, -⟩ := (shows_of_run (hs.append hr) l).isShut_act hshut a
    exact ⟨by simpa [spoken, hsaid] using hspoken, hnext⟩

/-- How many deliveries of a link are to come. -/
def Wire.waiting (u : Wire) (l : LinkId) : Nat :=
  ((u.network.links[l]?).map (·.queue.length)).getD 0

/-- The messages that were heard and those that are on their way are all that were said, but for
some that nobody wanted. -/
theorem Wire.Shows.accounts {seen : List Callback} {early late : List Message}
    (h : u.Shows l seen early late) : ∃ kept coming, kept <:+ early ∧
      heard seen ++ coming = kept ++ late ∧ (.closed ∈ seen ∨ u.waiting l = 0 → coming = []) := by
  cases h with
  | ahead => exact ⟨[], [], List.suffix_refl _, rfl, fun _ => rfl⟩
  | @opened k _ _ told untold hk _ hcourse =>
    obtain ⟨kept, hsuffix, hkept⟩ := hcourse.kept
    refine ⟨kept, untold.messages, hsuffix, by rw [heard_callbacks, hkept], ?_⟩
    rintro (hclosed | hwaiting)
    · rw [hcourse.spent (Tale.closed_mem_callbacks.mp hclosed)]
      rfl
    · have hempty : untold.deliveries = [] := by
        rw [← hcourse.queue]
        simpa [Wire.waiting, hk] using hwaiting
      simpa [Tale.deliveries] using (List.append_eq_nil_iff.mp (List.append_eq_nil_iff.mp hempty).1).2

theorem Wire.Shows.order {seen : List Callback} {early late : List Message}
    (h : u.Shows l seen early late) :
    ∃ told : Tale, seen = told.callbacks ∧ (told.messages ≠ [] → told.opening = true) := by
  cases h with
  | ahead => exact ⟨.empty, rfl, fun h => absurd rfl h⟩
  | opened _ _ hcourse => exact ⟨_, rfl, hcourse.opening_of_messages⟩

theorem heard_sublist_spoken (h : Run act idle hist u) (l : LinkId) :
    (heard (seen l hist)).Sublist (spoken l hist) := by
  obtain ⟨kept, coming, hsuffix, hkept, -⟩ := (shows_of_run h l).accounts
  have hall : (kept ++ late l hist).Sublist (spoken l hist) := by
    rw [spoken_eq h l]
    exact hsuffix.sublist.append_right _
  exact (List.sublist_append_left (heard (seen l hist)) coming).trans (hkept ▸ hall)

theorem torn_snoc (hist : List (Wire × Action)) (u : Wire) (a : Action) :
    torn (hist ++ [(u, a)]) = torn hist ++ (u.tears a).toList := by
  unfold torn
  rw [List.filterMap_append]
  cases htears : u.tears a <;> simp [htears]

/-- A link is torn down while it is open, and is shut by it. -/
theorem tears_act {a : Action} (h : u.tears a = some l) :
    u.isShut l = false ∧ (act a u).isShut l = true := by
  cases a with
  | teardown l' =>
    simp only [Wire.tears] at h
    split at h
    · rename_i hopen
      obtain rfl := Option.some.inj h
      have hlink : (act (.teardown l') u).network.links[l']? =
          (u.network.links[l']?).map fun k => if k.shut then k else k.close := by
        show (u.network.shutLink l' true).links[l']? = _
        rw [Network.links_shutLink, List.getElem?_modify]
        simp
      cases hk : u.network.links[l']? with
      | none => simp [Wire.isOpen, hk] at hopen
      | some k =>
        have hshut : k.shut = false := by simpa [Wire.isOpen, hk] using hopen
        exact ⟨by simp [Wire.isShut, hk, hshut], by simp [Wire.isShut, hlink, hk, hshut, Link.close]⟩
    · cases h
  | _ => cases h

theorem teardowns_of_run (h : Run act idle hist u) : u.network.teardowns = (torn hist).length := by
  induction h with
  | nil => rfl
  | snoc a hr ih => rw [teardowns_act, ih, torn_snoc, List.length_append]

/-- A link that is torn down is shut from then on, so that it is torn down once. -/
theorem torn_of_run (h : Run act idle hist u) :
    (torn hist).Nodup ∧ ∀ l ∈ torn hist, u.isShut l = true := by
  induction h with
  | nil => simp [torn]
  | @snoc hist u a hr ih =>
    obtain ⟨hnodup, hshut⟩ := ih
    have hlasting : ∀ l ∈ torn hist, (act a u).isShut l = true := fun l hl =>
      ((shows_of_run hr l).isShut_act (hshut l hl) a).1
    rw [torn_snoc]
    cases htears : u.tears a with
    | none => simpa using ⟨hnodup, hlasting⟩
    | some l =>
      obtain ⟨hopen, hnext⟩ := tears_act htears
      have hnew : l ∉ torn hist := fun hl => by simp [hshut l hl] at hopen
      refine ⟨(List.nodup_append.mpr ⟨hnodup, by simp, ?_⟩), ?_⟩
      · rintro l' hl' _ hl rfl
        exact hnew (List.mem_singleton.mp hl ▸ hl')
      · intro l' hl'
        rcases List.mem_append.mp hl' with hl' | hl'
        · exact hlasting l' hl'
        · exact List.mem_singleton.mp hl' ▸ hnext

theorem waiting_deliver (u : Wire) (l : LinkId) :
    (act (.deliver l) u).waiting l = u.waiting l - 1 := by
  show Option.getD (((u.network.links.modify l (·.deliver.2))[l]?).map (·.queue.length)) 0 = _
  rw [List.getElem?_modify]
  cases hk : u.network.links[l]? with
  | none => simp [Wire.waiting, hk]
  | some k =>
    cases hq : k.queue with
    | nil => simp [Wire.waiting, hk, Link.deliver, hq]
    | cons d rest => simp [Wire.waiting, hk, deliver_cons hq, report_queue k rest d, hq]

theorem waiting_replicate (u : Wire) (l : LinkId) (count : Nat) :
    (reach act u (.replicate count (.deliver l))).waiting l = u.waiting l - count := by
  induction count generalizing u with
  | zero => rfl
  | succ count ih =>
    refine (ih (act (.deliver l) u)).trans ?_
    rw [waiting_deliver]
    omega

/-- A mesh, and everything that is done on it. -/
structure Exchange where
  actions : List Action

namespace Exchange

def history (x : Exchange) : List (Wire × Action) := trail act idle x.actions

def outcome (x : Exchange) : Wire := reach act idle x.actions

theorem run (x : Exchange) : Run act idle x.history x.outcome := .of_actions act idle x.actions

def next (x : Exchange) (later : List Action) : Exchange := ⟨x.actions ++ later⟩

def seen (x : Exchange) (l : LinkId) : List Callback := Simulation.seen l x.history

/-- What can be relied on in every link. -/
structure Proper (x : Exchange) : Prop where
  /-- First a link is established, then messages come, then it is closed. -/
  order : ∀ l, ∃ told : Tale, x.seen l = told.callbacks ∧ (told.messages ≠ [] → told.opening = true)
  /-- A link that is shut is not reported as established. -/
  unshut : ∀ u a l, (u, a) ∈ x.history → (l, .established) ∈ u.reports a → u.isOpen l = true
  /-- Messages arrive in the order in which they were said, and each of them once at most. -/
  once : ∀ l, (heard (x.seen l)).Sublist (spoken l x.history)
  /-- Before a link is reported as closed, all messages have arrived that were wanted. -/
  ended : ∀ l, .closed ∈ x.seen l →
    ∃ kept, kept <:+ early l x.history ∧ heard (x.seen l) = kept ++ late l x.history
  /-- All messages that were wanted arrive when deliveries go on. -/
  arriving : ∀ l count, x.outcome.waiting l ≤ count → ∃ kept, kept <:+ early l x.history ∧
    heard ((x.next (.replicate count (.deliver l))).seen l) = kept ++ late l x.history
  /-- What is said after a link was shut never arrives. -/
  unheard : ∀ l first rest, x.actions = first ++ rest → (Exchange.mk first).outcome.isShut l = true →
    (heard (x.seen l)).Sublist (spoken l (Exchange.mk first).history)
  /-- Teardowns are counted for those links that this side shut first. -/
  counted : x.outcome.network.teardowns = (torn x.history).length
  tornOnce : (torn x.history).Nodup
  lasting : ∀ u a l, (u, a) ∈ x.history → u.isShut l = true → (act a u).isShut l = true
  /-- A remote shell stays on its link until that link is shut, or until it gets a new one. -/
  attached : ∀ u a, (u, a) ∈ x.history → ∀ name,
    (act a u).network.slot name = u.network.slot name ∨
      (∃ l, u.network.slot name = some l ∧ u.shuts a = some l) ∨
      (act a u).network.slot name = some u.network.links.length ∧
        (act a u).network.links.length = u.network.links.length + 1

end Exchange

theorem silent_replicate (u : Wire) (l : LinkId) (count : Nat) :
    early l (trail act u (.replicate count (.deliver l))) = [] ∧
      late l (trail act u (.replicate count (.deliver l))) = [] := by
  have hsaid : ∀ p ∈ trail act u (.replicate count (.deliver l)), p.1.said l p.2 = [] := by
    intro p hp
    have hp' := List.mem_map_of_mem (f := (·.2)) hp
    rw [trail_actions] at hp'
    rw [List.eq_of_mem_replicate hp']
    rfl
  constructor <;> refine List.flatMap_eq_nil_iff.mpr fun p hp => ?_
  · simp [hsaid p hp]
  · simp [hsaid p hp]

theorem exchange_proper (x : Exchange) : x.Proper where
  order l := (shows_of_run x.run l).order
  unshut u a l hm hreport := by
    obtain ⟨before, _, -, hu, -⟩ := x.run.cut hm
    have hseen : .established ∈ u.reportsOf l a :=
      List.mem_map.mpr ⟨(l, .established), List.mem_filter.mpr ⟨hreport, decide_eq_true rfl⟩, rfl⟩
    exact (shows_of_run hu l).isOpen_of_established hseen
  once := heard_sublist_spoken x.run
  ended l hclosed := by
    obtain ⟨kept, coming, hsuffix, hkept, hcoming⟩ := (shows_of_run x.run l).accounts
    rw [hcoming (.inl hclosed), List.append_nil] at hkept
    exact ⟨kept, hsuffix, hkept⟩
  arriving l count hcount := by
    let y := x.next (.replicate count (.deliver l))
    have hhistory : y.history = x.history ++ trail act x.outcome (.replicate count (.deliver l)) :=
      trail_append act idle x.actions _
    have hwaiting : y.outcome.waiting l = 0 := by
      have houtcome : y.outcome = reach act x.outcome (.replicate count (.deliver l)) :=
        reach_append act idle x.actions _
      rw [houtcome, waiting_replicate]
      omega
    obtain ⟨hearly, hlate⟩ := silent_replicate x.outcome l count
    obtain ⟨kept, coming, hsuffix, hkept, hcoming⟩ := (shows_of_run y.run l).accounts
    rw [hcoming (.inr hwaiting), List.append_nil] at hkept
    refine ⟨kept, ?_, hkept.trans ?_⟩
    · simpa [hhistory, early_append, hearly] using hsuffix
    · simp [hhistory, late_append, hlate]
  unheard l first rest hactions hshut := by
    have hhistory : x.history = (Exchange.mk first).history ++
        trail act (Exchange.mk first).outcome rest := by
      rw [Exchange.history, hactions]
      exact trail_append act idle first rest
    have hspoken := spoken_of_isShut (Exchange.mk first).run hshut (.of_actions act _ rest)
    have honce := heard_sublist_spoken x.run l
    rw [hhistory] at honce
    simpa [Exchange.seen, hhistory, spoken_append, hspoken.1] using honce
  counted := teardowns_of_run x.run
  tornOnce := (torn_of_run x.run).1
  lasting u a l hm hshut := by
    obtain ⟨before, _, -, hu, -⟩ := x.run.cut hm
    exact ((shows_of_run hu l).isShut_act hshut a).1
  attached u a hm name := by
    have hstart : idle.Attached := by simp [Wire.Attached, idle, Network.slot, Network.remote,
      Network.empty, Remote.new]
    have hattached : u.Attached := x.run.always hstart (fun b _ h => attached_act h b) hm
    rcases slot_act hattached a name with h | ⟨l, hl, hshuts, -⟩ | h
    · exact .inl h
    · exact .inr (.inl ⟨l, hl, hshuts⟩)
    · exact .inr (.inr h)

end MeshShell.Simulation
