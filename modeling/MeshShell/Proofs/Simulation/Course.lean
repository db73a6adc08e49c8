import MeshShell.Simulation.Link
import Mathlib.Data.List.Basic

/-! # The course of a link

What is told of a link comes in one order: that it is established, then its
messages, then that it is closed. What waits in the queue of the link continues
what was told already.
-/
namespace MeshShell.Simulation

def Delivery.callback : Delivery → Callback
  | .established => .established
  | .message m => .message m
  | .closed => .closed

/-- A part of what there is to tell of a link. -/
structure Tale where
  opening : Bool
  messages : List Message
  ending : Bool

namespace Tale

def empty : Tale := ⟨false, [], false⟩

def deliveries (t : Tale) : List Delivery :=
  (if t.opening then [.established] else []) ++ t.messages.map .message ++
    if t.ending then [.closed] else []

def callbacks (t : Tale) : List Callback := t.deliveries.map Delivery.callback

theorem closed_mem_callbacks {t : Tale} : .closed ∈ t.callbacks ↔ t.ending = true := by
  obtain ⟨opening, messages, ending⟩ := t
  cases opening <;> cases ending <;> simp [callbacks, deliveries, Delivery.callback]

end Tale

/-- How far a link has come. The messages that were put on it are told apart: early are those for
which there was no handler yet, late are the others. -/
structure Course (k : Link) (early late : List Message) (told untold : Tale) : Prop where
  queue : k.queue = untold.deliveries
  established : k.established = told.opening
  shut : k.shut = (told.ending || untold.ending)
  spent : told.ending = true → untold = .empty
  once : untold.opening = true → told.opening = false
  unwanted : k.handler = none → told.messages = [] ∧ late = []
  wanted : k.handler ≠ none → told.opening = true
  /-- Messages only get lost before there is a handler. -/
  kept : ∃ kept, kept <:+ early ∧ told.messages ++ untold.messages = kept ++ late

variable {k : Link} {early late : List Message} {told untold : Tale}

theorem course_new (name : String) : Course (.new name) [] [] .empty .empty where
  queue := rfl
  established := rfl
  shut := rfl
  spent := fun _ => rfl
  once := nofun
  unwanted := fun _ => ⟨rfl, rfl⟩
  wanted := fun h => absurd rfl h
  kept := ⟨[], List.suffix_refl _, rfl⟩

theorem course_accepted (name : String) :
    Course ((Link.new name).push .established) [] [] .empty { Tale.empty with opening := true } where
  queue := rfl
  established := rfl
  shut := rfl
  spent := nofun
  once := fun _ => rfl
  unwanted := fun _ => ⟨rfl, rfl⟩
  wanted := fun h => absurd rfl h
  kept := ⟨[], List.suffix_refl _, rfl⟩

namespace Course

theorem untold_ending (h : Course k early late told untold) (hopen : k.shut = false) :
    told.ending = false ∧ untold.ending = false := by
  simpa [h.shut] using hopen

/-- A message that is put on a link which is open waits behind all others. -/
theorem push (h : Course k early late told untold) (hopen : k.shut = false) (m : Message) :
    Course (k.push (.message m)) (early ++ if k.handler = none then [m] else [])
      (late ++ if k.handler = none then [] else [m]) told
      { untold with messages := untold.messages ++ [m] } := by
  obtain ⟨htold, huntold⟩ := h.untold_ending hopen
  obtain ⟨kept, hsuffix, hkept⟩ := h.kept
  have hpush : k.push (.message m) = { k with queue := k.queue ++ [.message m] } := by
    simp [Link.push, hopen]
  rw [hpush]
  refine ⟨?_, h.established, h.shut, ?_, h.once, ?_, h.wanted, ?_⟩
  · simp [h.queue, Tale.deliveries, huntold]
  · simp [htold]
  · intro hnone
    have hnone : k.handler = none := hnone
    simpa [hnone] using h.unwanted hnone
  · by_cases hnone : k.handler = none
    · obtain ⟨before, rfl⟩ := hsuffix
      refine ⟨kept ++ [m], ⟨before, by simp [hnone]⟩, ?_⟩
      rw [← List.append_assoc, hkept]
      simp [hnone, (h.unwanted hnone).2]
    · refine ⟨kept, by simpa [hnone] using hsuffix, ?_⟩
      rw [← List.append_assoc, hkept]
      simp [hnone]

theorem close (h : Course k early late told untold) (hopen : k.shut = false) :
    Course k.close early late told { untold with ending := true } := by
  obtain ⟨htold, huntold⟩ := h.untold_ending hopen
  have hclose : k.close = { k with queue := k.queue ++ [.closed], shut := true } := by
    simp [Link.close, Link.push, hopen]
  rw [hclose]
  refine ⟨?_, h.established, ?_, ?_, h.once, h.unwanted, h.wanted, h.kept⟩
  · simp [h.queue, Tale.deliveries, huntold]
  · simp
  · simp [htold]

theorem handle (h : Course k early late told untold) (hup : k.established = true) (name : String) :
    Course { k with handler := some name } early late told untold :=
  ⟨h.queue, h.established, h.shut, h.spent, h.once, nofun, fun _ => h.established ▸ hup, h.kept⟩

theorem opening_of_messages (h : Course k early late told untold) (hne : told.messages ≠ []) :
    told.opening = true :=
  h.wanted fun hnone => hne (h.unwanted hnone).1

theorem going (h : Course k early late told untold) (hne : untold ≠ .empty) : told.ending = false :=
  Bool.eq_false_iff.mpr fun hend => hne (h.spent hend)

end Course

/-- After a delivery the link has come as far as what it brought. -/
def Link.Tells (k : Link) (early late : List Message) (told : Tale) : Prop :=
  ∃ told' untold', Course k.deliver.2 early late told' untold' ∧
    told'.callbacks = told.callbacks ++ k.deliver.1.toList

theorem deliver_cons {d : Delivery} {rest : List Delivery} (hq : k.queue = d :: rest) :
    k.deliver = Link.report { k with queue := rest } d := by
  simp [Link.deliver, hq]

namespace Course

variable {messages rest : List Message} {m : Message} {ending : Bool}

theorem tells_opening (h : Course k early late told ⟨true, messages, ending⟩) :
    k.Tells early late told := by
  have hend : told.ending = false := h.going nofun
  have hdown : told.opening = false := h.once rfl
  have hnone : k.handler = none := by
    by_contra hsome
    simp [h.wanted hsome] at hdown
  have hsilent := (h.unwanted hnone).1
  have hq : k.queue = .established :: (Tale.mk false messages ending).deliveries := h.queue
  unfold Link.Tells
  rw [deliver_cons hq]
  by_cases hshut : k.shut = true
  · refine ⟨told, ⟨false, messages, ending⟩, ?_, ?_⟩
    · rw [Link.report, if_pos hshut]
      exact ⟨rfl, h.established, h.shut, by simp [hend], nofun, h.unwanted, h.wanted, h.kept⟩
    · simp [Link.report, hshut]
  · refine ⟨{ told with opening := true }, ⟨false, messages, ending⟩, ?_, ?_⟩
    · rw [Link.report, if_neg hshut]
      exact ⟨rfl, rfl, h.shut, by simp [hend], nofun, h.unwanted, fun _ => rfl, h.kept⟩
    · simp [Link.report, hshut, Tale.callbacks, Tale.deliveries, hsilent, hdown, hend,
        Delivery.callback]

theorem tells_message (h : Course k early late told ⟨false, m :: rest, ending⟩) :
    k.Tells early late told := by
  have hend : told.ending = false := h.going nofun
  obtain ⟨kept, hsuffix, hkept⟩ := h.kept
  have hq : k.queue = .message m :: (Tale.mk false rest ending).deliveries := h.queue
  unfold Link.Tells
  rw [deliver_cons hq]
  by_cases hnone : k.handler = none
  · obtain ⟨hsilent, hlate⟩ := h.unwanted hnone
    refine ⟨told, ⟨false, rest, ending⟩, ?_, ?_⟩
    · have hwaiting : m :: rest = kept := by simpa [hsilent, hlate] using hkept
      have hrest : rest <:+ early := (List.suffix_cons m rest).trans (hwaiting ▸ hsuffix)
      exact ⟨rfl, h.established, h.shut, by simp [hend], nofun, h.unwanted, h.wanted, rest, hrest,
        by simp [hsilent, hlate]⟩
    · simp [Link.report, hnone]
  · have hsome : k.handler.isSome = true := Option.isSome_iff_ne_none.mpr hnone
    refine ⟨{ told with messages := told.messages ++ [m] }, ⟨false, rest, ending⟩, ?_, ?_⟩
    · exact ⟨rfl, h.established, h.shut, by simp [hend], nofun, fun hn => absurd hn hnone,
        h.wanted, kept, hsuffix, by simpa using hkept⟩
    · simp [Link.report, hsome, Tale.callbacks, Tale.deliveries, hend, Delivery.callback]

theorem tells_ending (h : Course k early late told ⟨false, [], true⟩) : k.Tells early late told := by
  have hend : told.ending = false := h.going nofun
  have hq : k.queue = [.closed] := h.queue
  unfold Link.Tells
  rw [deliver_cons hq]
  refine ⟨{ told with ending := true }, .empty, ?_, ?_⟩
  · exact ⟨rfl, h.established, by simp [Link.report, h.shut], fun _ => rfl, nofun, h.unwanted,
      h.wanted, h.kept⟩
  · simp [Link.report, Tale.callbacks, Tale.deliveries, hend, Delivery.callback]

theorem tells (h : Course k early late told untold) : k.Tells early late told := by
  obtain ⟨opening, messages, ending⟩ := untold
  cases opening with
  | true => exact h.tells_opening
  | false =>
    cases messages with
    | cons m rest => exact h.tells_message
    | nil =>
      cases ending with
      | true => exact h.tells_ending
      | false =>
        have hnothing : k.deliver = (none, k) := by
          have hq : k.queue = [] := h.queue
          simp [Link.deliver, hq]
        exact ⟨told, .empty, by rwa [hnothing], by simp [hnothing]⟩

end Course

theorem report_queue (k : Link) (queue : List Delivery) (d : Delivery) :
    Link.report { k with queue } d = ((k.report d).1, { (k.report d).2 with queue }) := by
  cases d with
  | established => by_cases hshut : k.shut = true <;> simp [Link.report, hshut]
  | message m => rfl
  | closed => rfl

theorem deliverAll_cons {d : Delivery} {rest : List Delivery} (hq : k.queue = d :: rest) :
    k.deliverAll =
      (k.deliver.1.toList ++ k.deliver.2.deliverAll.1, k.deliver.2.deliverAll.2) := by
  have hempty : Link.report { k with queue := [] } d =
      (k.deliver.1, { k.deliver.2 with queue := [] }) := by
    rw [deliver_cons hq, report_queue k [] d, report_queue k rest d]
  have hrest : k.deliver.2.queue = rest := by rw [deliver_cons hq, report_queue]
  unfold Link.deliverAll
  rw [hq, hrest, Link.reportAll, hempty]

theorem deliverAll_nil (hq : k.queue = []) : k.deliverAll = ([], k) := by
  obtain ⟨remote, established, shut, handler, queue⟩ := k
  obtain rfl : queue = [] := hq
  rfl

end MeshShell.Simulation
