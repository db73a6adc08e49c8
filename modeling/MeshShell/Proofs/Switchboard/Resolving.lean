import Mathlib.Algebra.Order.Floor.Div
import MeshShell.Proofs.Switchboard.Asking
import MeshShell.Proofs.Switchboard.Timely

/-! # Resolving a destination

A caller that resolves a destination is told at once if a path is known. If not,
the path is asked for, and the caller checks after every interval until it finds
the path or the span is over. How many checks there can be follows from the span
and the interval, and whatever others do, each of them comes at its time.
-/
namespace MeshShell.Switchboard

variable {σ : Type} {w w' : Switchboard σ}

/-- A caller waits for its timer, which has not been passed. -/
structure Rings (p : Pending) (w : Switchboard σ) : Prop where
  timer : p ∈ w.waits
  now : w.now ≤ p.wake
  answer : w.answer? p.ticket = none

/-- A caller has its answer and waits for nothing. -/
structure Knows (a : Answered) (w : Switchboard σ) : Prop where
  answer : w.answer? a.ticket = some a
  untimed : ∀ p ∈ w.waits, p.ticket ≠ a.ticket

theorem Rings.spared {p : Pending} (h : Rings p w) (hs : Spares p.ticket w w')
    (hnow : w'.now ≤ p.wake) : Rings p w' where
  timer := (hs.waits p rfl).mpr h.timer
  now := hnow
  answer := hs.answer.trans h.answer

theorem Knows.spared {a : Answered} (h : Knows a w) (hs : Spares a.ticket w w') : Knows a w' where
  answer := hs.answer.trans h.answer
  untimed := fun p hp ht => h.untimed p ((hs.waits p ht).mp hp) ht

theorem Rings.idle {p : Pending} (h : Rings p w) (hw : w.Booked) (hread : ∀ g, p.wait ≠ .reading g) :
    w.Idle p.ticket := by
  refine ⟨hw.2 p h.timer, fun q hq ht g => ?_⟩
  obtain rfl : q = p := List.inj_on_of_nodup_map hw.1 hq h.timer ht
  exact hread g

theorem Knows.idle {a : Answered} (h : Knows a w) (hdrawn : a.ticket < w.nextTicket) :
    w.Idle a.ticket := ⟨hdrawn, fun p hp ht => absurd ht (h.untimed p hp)⟩

theorem rings_arm {p : Pending} (hnow : w.now ≤ p.wake) (hans : w.answer? p.ticket = none) :
    Rings p (w.arm p) := ⟨mem_waits_arm.mpr (.inr rfl), hnow, hans⟩

theorem knows_reply {ticket : Ticket} (hans : w.answer? ticket = none) (answer : Answer) :
    Knows ⟨ticket, w.now, answer⟩ (w.reply ticket answer) :=
  ⟨answer?_reply hans answer, fun _ hp => (mem_waits_reply.mp hp).2⟩

variable [Transport σ]

theorem Step.settings (hst : Step w w') : w'.settings = w.settings := by
  cases hst <;> rfl

theorem Steps.settings (hst : Steps w w') : w'.settings = w.settings := by
  induction hst with
  | refl => rfl
  | tail _ hstep ih => exact hstep.settings.trans ih

theorem settings_take (hw : w.Booked) (hset : w.Settled) (c : Call σ) :
    (w.take c).settings = w.settings := by
  by_cases hc : c.Plain
  · exact (steps_take hw hset hc).settings
  · cases c with
    | read h span =>
      dsimp only [take]
      cases hs : w.sessions[(h : Nat)]? with
      | none =>
        rw [read_none hs]
        rfl
      | some s =>
        rw [read_eq hs]
        rcases s.join w.nextTicket (0 < span) with ⟨_ | outcome, s'⟩ <;> rfl
    | advance time => exact (steps_settle _).settings
    | _ => exact absurd trivial hc

/-- A run in which somebody resolves a destination. Afterwards callers come in any order, paths
become known and are lost, and time goes on as timers run out. -/
structure Search (σ : Type) [Transport σ] where
  before : Traffic σ
  destination : Destination
  span : Millis
  later : List (Call σ)
  interval : 0 < before.outcome.board.pathPoll
  punctual : (trail take (before.outcome.board.take (.resolve destination span)) later).all
    fun (w, c) => c.punctual before.outcome.board.nextTicket w

namespace Search

variable (x : Search σ)

/-- The switchboard on which the destination is resolved. -/
def board : Switchboard σ := x.before.outcome.board

def ticket : Ticket := x.board.nextTicket

def time : Millis := x.board.now

def poll : Millis := x.board.pathPoll

/-- The time after so many intervals. -/
def tick (k : Nat) : Millis := x.time + k * x.poll

/-- The number of intervals that it takes until the span is over. -/
def rounds : Nat := x.span ⌈/⌉ x.poll

def Known (w : Switchboard σ) : Prop := Transport.hasPath x.destination w.transport = true

def resolved : Switchboard σ := x.board.take (.resolve x.destination x.span)

def history : List (Switchboard σ × Call σ) := trail take x.resolved x.later

def outcome : Switchboard σ := reach take x.resolved x.later

theorem run : Run take x.resolved x.history x.outcome := .of_actions take x.resolved x.later

/-- The switchboards at which the caller checks. -/
def checksIn (hist : List (Switchboard σ × Call σ)) : List (Switchboard σ) :=
  (hist.filter fun (w, c) => c.wakes x.ticket w).map (·.1)

def checks : List (Switchboard σ) := x.checksIn x.history

def answer (k : Nat) (found : Bool) : Answered := ⟨x.ticket, x.tick k, .resolved found⟩

/-- The timer that is set to a check. -/
def timer (k : Nat) : Pending := ⟨x.ticket, x.tick k, .resolving x.destination (x.time + x.span)⟩

/-- Checks that do not find the path, one after every interval. -/
def Vainly (checks : List (Switchboard σ)) : Prop :=
  ∀ k w, checks[k]? = some w → w.now = x.tick (k + 1) ∧ ¬ x.Known w

/-- What a caller is told that has checked at the given switchboards. -/
inductive Verdict (checks : List (Switchboard σ)) : Answered → Prop
  | known : x.Known x.board → checks = [] → Verdict checks (x.answer 0 true)
  | found {past : List (Switchboard σ)} {v : Switchboard σ} : ¬ x.Known x.board →
      checks = past ++ [v] → x.Vainly past → past.length < x.rounds →
      v.now = x.tick (past.length + 1) → x.Known v → Verdict checks (x.answer (past.length + 1) true)
  | missed : ¬ x.Known x.board → x.Vainly checks → checks.length = x.rounds →
      Verdict checks (x.answer x.rounds false)

/-- How far a caller has come that has checked so far at the given switchboards. -/
inductive Reached (checks : List (Switchboard σ)) (w : Switchboard σ) : Prop
  | waiting : ¬ x.Known x.board → x.Vainly checks → checks.length < x.rounds →
      Rings (x.timer (checks.length + 1)) w → Reached checks w
  | told {a : Answered} : x.Verdict checks a → Knows a w → Reached checks w

variable {x} {checks : List (Switchboard σ)}

theorem lt_rounds_iff {k : Nat} : k < x.rounds ↔ x.tick k < x.time + x.span := by
  have hpoll : 0 < x.poll := x.interval
  unfold tick rounds
  rw [Nat.add_lt_add_iff_left, ← not_le, ceilDiv_le_iff_le_mul hpoll, not_le, Nat.mul_comm]

theorem tick_succ (k : Nat) : x.tick (k + 1) = x.tick k + x.poll := by
  unfold tick
  rw [Nat.succ_mul, Nat.add_assoc]

theorem Verdict.ticket {a : Answered} (h : x.Verdict checks a) : a.ticket = x.ticket := by
  cases h <;> rfl

theorem Vainly.snoc (h : x.Vainly checks) (hnow : w.now = x.tick (checks.length + 1))
    (hno : ¬ x.Known w) : x.Vainly (checks ++ [w]) := by
  intro k u hu
  rw [List.getElem?_append] at hu
  split at hu
  · exact h k u hu
  · rename_i hlast
    rw [List.getElem?_singleton] at hu
    split at hu
    · obtain rfl := Option.some.inj hu
      obtain rfl : k = checks.length := by omega
      exact ⟨hnow, hno⟩
    · cases hu

/-- A check ends the waiting or sets the timer to the next one. -/
theorem reached_check (hno : ¬ x.Known x.board) (hvain : x.Vainly checks)
    (hlt : checks.length < x.rounds) (hnow : w.now = x.tick (checks.length + 1))
    (hpoll : w.pathPoll = x.poll) (hans : w.answer? x.ticket = none) :
    x.Reached (checks ++ [w]) (w.lookForPath x.ticket x.destination (x.time + x.span)) := by
  unfold lookForPath
  by_cases hpath : Transport.hasPath x.destination w.transport = true
  · rw [if_pos hpath]
    have hknows := knows_reply hans (.resolved true)
    rw [hnow] at hknows
    exact .told (.found hno rfl hvain hlt hnow hpath) hknows
  · have hmore := hvain.snoc hnow hpath
    have hlength : (checks ++ [w]).length = checks.length + 1 := by simp
    rw [if_neg hpath]
    by_cases hearly : checks.length + 1 < x.rounds
    · rw [if_pos (hnow ▸ lt_rounds_iff.mp hearly)]
      have hwake : w.now + w.pathPoll = x.tick ((checks ++ [w]).length + 1) := by
        rw [hlength, tick_succ (checks.length + 1), hnow, hpoll]
      rw [hwake]
      refine .waiting hno hmore (hlength ▸ hearly) (rings_arm ?_ hans)
      exact (Nat.le_add_right w.now w.pathPoll).trans hwake.le
    · rw [if_neg (hnow ▸ fun h => hearly (lt_rounds_iff.mpr h))]
      have hall : (checks ++ [w]).length = x.rounds := by omega
      have hknows := knows_reply hans (.resolved false)
      rw [hnow, ← hlength, hall] at hknows
      exact .told (.missed hno hmore hall) hknows

theorem Reached.idle (h : x.Reached checks w) (hw : w.Booked) (hdrawn : x.ticket < w.nextTicket) :
    w.Idle x.ticket := by
  cases h with
  | waiting _ _ _ hrings => exact hrings.idle hw (by simp [timer])
  | told hv hknows =>
    rw [← hv.ticket] at hdrawn ⊢
    exact hknows.idle hdrawn

theorem Reached.spared (h : x.Reached checks w) (hs : Spares x.ticket w w')
    (hnow : ∀ k, x.timer k ∈ w.waits → w.now ≤ x.tick k → w'.now ≤ x.tick k) :
    x.Reached checks w' := by
  cases h with
  | waiting hno hvain hlt hrings =>
    exact .waiting hno hvain hlt (hrings.spared hs (hnow _ hrings.timer hrings.now))
  | told hv hknows => exact .told hv (hknows.spared (hv.ticket.symm ▸ hs))

theorem Reached.settle {readings : List Reading} (h : x.Reached checks w) (hx : Sound readings w)
    (hdrawn : x.ticket < w.nextTicket) : x.Reached checks w.settle :=
  h.spared (spares_settle hx (h.idle hx.booked hdrawn)) fun _ _ hle =>
    ((steps_settle w).now.le).trans hle

theorem Reached.woken {readings : List Reading} (h : x.Reached checks w) (hx : Sound readings w)
    (hpoll : w.pathPoll = x.poll) (hdrawn : x.ticket < w.nextTicket) {p : Pending}
    (ht : p.ticket = x.ticket) (hp : p ∈ w.waits) (hwake : p.wake ≤ w.now) :
    x.Reached (checks ++ [w]) (w.take (.expire p)) := by
  have hi := h.idle hx.booked hdrawn
  cases h with
  | told hv hknows => exact absurd (ht.trans hv.ticket.symm) (hknows.untimed p hp)
  | waiting hno hvain hlt hrings =>
    obtain rfl : p = x.timer (checks.length + 1) :=
      List.inj_on_of_nodup_map hx.booked.1 hp hrings.timer ht
    have htake : w.take (.expire (x.timer (checks.length + 1))) =
        (w.lookForPath x.ticket x.destination (x.time + x.span)).settle := if_pos ⟨hp, hwake⟩
    have hsteps := steps_lookForPath hi x.destination (x.time + x.span)
    have hnow : w.now = x.tick (checks.length + 1) := Nat.le_antisymm hrings.now hwake
    rw [htake]
    exact (reached_check hno hvain hlt hnow hpoll hrings.answer).settle (hsteps.sound hx)
      (Nat.lt_of_lt_of_le hdrawn (Steps.nextTicket_le hsteps))

/-- What is known of the caller at any time. -/
structure Underway (x : Search σ) (checks : List (Switchboard σ)) (w : Switchboard σ) : Prop where
  good : ∃ readings, Watched.Good ⟨w, readings⟩
  poll : w.pathPoll = x.poll
  drawn : x.ticket < w.nextTicket
  reached : x.Reached checks w

theorem Underway.take (h : x.Underway checks w) {c : Call σ} (hc : c.punctual x.ticket w = true) :
    x.Underway (checks ++ if c.wakes x.ticket w then [w] else []) (w.take c) := by
  obtain ⟨readings, hgood⟩ := h.good
  have hx : Sound readings w := hgood.sound
  have hset : w.Settled := hgood.settled
  have hi : w.Idle x.ticket := h.reached.idle hx.booked h.drawn
  refine ⟨⟨_, hgood.watch c⟩, ?_,
    Nat.lt_of_lt_of_le h.drawn (nextTicket_take hx.booked hset c), ?_⟩
  · rw [pathPoll, settings_take hx.booked hset c]
    exact h.poll
  · cases hwakes : c.wakes x.ticket w with
    | false =>
      rw [if_neg (by simp), List.append_nil]
      refine h.reached.spared (spares_take hx hset hi hwakes) ?_
      exact fun k htimer hle => now_take hx.booked hset htimer hc hle
    | true =>
      cases c with
      | expire p =>
        obtain ⟨ht, hp, hwake⟩ := of_decide_eq_true hwakes
        exact h.reached.woken hx h.poll h.drawn ht hp hwake
      | _ => cases hwakes

variable (x)

theorem good_board : ∃ readings, Watched.Good ⟨x.board, readings⟩ := ⟨_, x.before.good⟩

theorem tick_zero : x.tick 0 = x.time := by simp [tick]

/-- Who knows the path is told at once. Who does not asks for it and waits, if only there is time. -/
theorem reached_resolved {readings : List Reading} (hx : Sound readings x.board) :
    x.Reached [] x.resolved := by
  have hans : x.board.draw.2.answer? x.ticket = none := by
    refine List.find?_eq_none.mpr fun a ha => ?_
    have hlt : a.ticket < x.ticket := hx.answered a ha
    simpa using Nat.ne_of_lt hlt
  have hidle : (x.board.draw.2.inquire x.destination).Idle x.ticket :=
    hx.booked.idle_draw.of_same rfl rfl
  have hask : Steps x.board (x.board.draw.2.inquire x.destination) :=
    .head .draw (.single (.transport _))
  have hdrawn : x.ticket < (x.board.draw.2.inquire x.destination).nextTicket := Nat.lt_succ_self _
  have hvain : x.Vainly [] := fun k w hw => by simp at hw
  have hresolved : x.resolved = _ := resolve_eq x.board x.destination x.span
  have hspan : 0 < x.rounds ↔ 0 < x.span := by
    rw [lt_rounds_iff, tick_zero, Nat.lt_add_right_iff_pos]
  rw [hresolved]
  by_cases hknown : x.Known x.board
  · rw [if_pos (by exact hknown)]
    have hknows := knows_reply hans (.resolved true)
    have hnow : x.board.draw.2.now = x.tick 0 := x.tick_zero.symm
    rw [hnow] at hknows
    exact .told (.known hknown rfl) hknows
  · rw [if_neg (by exact hknown)]
    by_cases hwait : 0 < x.span
    · rw [if_pos hwait]
      have hwake : x.board.now + x.board.pathPoll = x.tick 1 := by
        rw [tick_succ, tick_zero]
        rfl
      have hrings : Rings (x.timer 1) ((x.board.draw.2.inquire x.destination).arm (x.timer 1)) :=
        rings_arm ((Nat.le_add_right _ _).trans hwake.le) hans
      rw [hwake]
      have hreached : x.Reached [] _ := .waiting hknown hvain (hspan.mpr hwait) hrings
      have hsteps : Steps x.board ((x.board.draw.2.inquire x.destination).arm (x.timer 1)) :=
        hask.tail (.arm hidle (by simp [timer]))
      exact hreached.settle (hsteps.sound hx) hdrawn
    · rw [if_neg hwait]
      have hnone : x.rounds = 0 := Nat.eq_zero_of_not_pos fun h => hwait (hspan.mp h)
      have hnow : (x.board.draw.2.inquire x.destination).now = x.tick x.rounds := by
        rw [hnone, tick_zero]
        rfl
      have hknows := knows_reply (w := x.board.draw.2.inquire x.destination) hans (.resolved false)
      rw [hnow] at hknows
      have hreached : x.Reached [] _ := .told (.missed hknown hvain hnone.symm) hknows
      have hsteps : Steps x.board
          ((x.board.draw.2.inquire x.destination).reply x.ticket (.resolved false)) :=
        hask.tail (.reply hidle (by simp))
      exact hreached.settle (hsteps.sound hx) hdrawn

theorem underway_resolved : x.Underway [] x.resolved := by
  obtain ⟨readings, hgood⟩ := x.good_board
  have hx : Sound readings x.board := hgood.sound
  refine ⟨⟨_, hgood.watch (.resolve x.destination x.span)⟩, ?_, ?_, x.reached_resolved hx⟩
  · have hsame := settings_take hx.booked hgood.settled (.resolve x.destination x.span)
    exact congrArg SessionSettings.poll hsame
  · have hresolved : x.resolved = _ := resolve_eq x.board x.destination x.span
    rw [hresolved]
    split
    · exact Nat.lt_succ_self _
    · split <;> (rw [nextTicket_settle]; exact Nat.lt_succ_self _)

theorem checksIn_snoc (hist : List (Switchboard σ × Call σ)) (w : Switchboard σ) (c : Call σ) :
    x.checksIn (hist ++ [(w, c)]) =
      x.checksIn hist ++ if c.wakes x.ticket w then [w] else [] := by
  cases hw : c.wakes x.ticket w <;> simp [checksIn, hw]

theorem underway_of_run {hist : List (Switchboard σ × Call σ)} {w : Switchboard σ}
    (hr : Run Switchboard.take x.resolved hist w)
    (hp : ∀ u ∈ hist, u.2.punctual x.ticket u.1 = true) : x.Underway (x.checksIn hist) w := by
  induction hr with
  | nil => exact x.underway_resolved
  | @snoc hist u c hr ih =>
    have hu := ih fun v hv => hp v (List.mem_append_left _ hv)
    rw [checksIn_snoc]
    exact hu.take (hp (u, c) (by simp))

theorem underway_outcome : x.Underway x.checks x.outcome :=
  x.underway_of_run x.run (List.all_eq_true.mp x.punctual)

end Search

end MeshShell.Switchboard
