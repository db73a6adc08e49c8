import MeshShell.Proofs.Session.Delivery

/-! # Callers that wait for output, on a clock

The first in line waits for the queue, everyone else waits to be the first. Output
and the end of the session only wake the first one. Until it has looked, anything
else can happen: more output comes, the session closes, and the time of a caller
further back runs out. What somebody does between two waits is one step. Time
itself stands still until everybody waits.
-/
namespace MeshShell.Session

variable {σ : Type} [Transport σ]

/-- Who learns what from an action. -/
def told (s : Session) : Action σ → Option (Ticket × ReadOutcome)
  | .read ticket patient => (s.join ticket patient).1.map (ticket, ·)
  | .serve => s.serveFirst.1
  | .expire ticket => if ticket ∈ s.readers then some (ticket, (s.leave ticket).1) else none
  | _ => none

omit [Transport σ] in
theorem results_eq (s : Session) (a : Action σ) : s.results a = (s.told a).toList.map (·.2) := by
  cases a with
  | read ticket patient => cases hj : (s.join ticket patient).1 <;> simp [results, told, hj]
  | serve => cases hf : s.serveFirst.1 <;> simp [results, told, hf]
  | expire ticket => by_cases hm : ticket ∈ s.readers <;> simp [results, told, hm]
  | _ => rfl

instance (a : Action σ) : Decidable a.Silent :=
  match a with
  | .read .. => isFalse not_false
  | .serve => isFalse not_false
  | .expire _ => isFalse not_false
  | .connect .. => isTrue trivial
  | .giveUp => isTrue trivial
  | .report _ => isTrue trivial
  | .drive => isTrue trivial
  | .sendInput _ => isTrue trivial
  | .resize _ => isTrue trivial
  | .close => isTrue trivial
  | .elsewhere _ => isTrue trivial

/-- A caller that reads for at most the given span. Its ticket is the number of those that came
before it. -/
structure Reader where
  start : Millis
  span : Millis

def Reader.deadline (r : Reader) : Millis := r.start + r.span

structure Learned where
  ticket : Ticket
  time : Millis
  outcome : ReadOutcome
  deriving DecidableEq

/-- A session on a clock, with everyone who has read from it and what they have learned so far. -/
structure Audience (σ : Type) where
  session : Session
  transport : σ
  now : Millis
  readers : List Reader
  learned : List Learned

namespace Audience

inductive Event (σ : Type)
  /-- Something happens in which readers have no part. -/
  | happen (a : Action σ)
  | read (span : Millis)
  /-- The first in line wakes up and looks. -/
  | wake
  /-- The time of a caller in line is up. -/
  | expire (ticket : Ticket)
  /-- Time passes. -/
  | pass (time : Millis)

def overdue (x : Audience σ) (ticket : Ticket) : Bool :=
  x.session.readers.contains ticket && (x.readers[ticket]?).any (·.deadline ≤ x.now)

/-- Nobody in line can go on before the given time. -/
def still (x : Audience σ) (time : Millis) : Bool :=
  x.session.serveFirst.1.isNone &&
    x.session.readers.all fun ticket => (x.readers[ticket]?).all (time ≤ ·.deadline)

/-- The action of the session that an event comes to, if it can happen. -/
def action? (x : Audience σ) : Event σ → Option (Action σ)
  | .happen a => if a.Silent then some a else none
  | .read span => some (.read x.readers.length (0 < span))
  | .wake => some .serve
  | .expire ticket =>
    if x.overdue ticket then
      -- The first in line looks once more before it leaves.
      if x.session.readers.head? = some ticket ∧ x.session.serveFirst.1.isSome then some .serve
      else some (.expire ticket)
    else none
  | .pass _ => none

def Event.newcomers (now : Millis) : Event σ → List Reader
  | .read span => [⟨now, span⟩]
  | _ => []

/-- What is learned with an event. -/
def news (x : Audience σ) (e : Event σ) : List Learned :=
  ((x.action? e).bind x.session.told).toList.map fun (ticket, outcome) => ⟨ticket, x.now, outcome⟩

/-- An event that cannot happen changes nothing. -/
def attend (e : Event σ) (x : Audience σ) : Audience σ :=
  match x.action? e with
  | some a =>
    let (session, transport) := next a (x.session, x.transport)
    { x with
      session, transport
      readers := x.readers ++ e.newcomers x.now
      learned := x.learned ++ x.news e }
  | none =>
    match e with
    | .pass time => if x.now < time ∧ x.still time then { x with now := time } else x
    | _ => x

theorem attend_none {x : Audience σ} {e : Event σ} (h : x.action? e = none) :
    attend e x = x ∨ ∃ time, e = .pass time ∧ x.now < time ∧ x.still time = true ∧
      attend e x = { x with now := time } := by
  unfold attend
  rw [h]
  cases e with
  | pass time =>
    dsimp only
    split
    · rename_i hpass
      exact .inr ⟨time, rfl, hpass.1, hpass.2, rfl⟩
    · exact .inl rfl
  | _ => exact .inl rfl

theorem attend_some {x : Audience σ} {e : Event σ} {a : Action σ} (h : x.action? e = some a) :
    attend e x =
      { session := (next a (x.session, x.transport)).1
        transport := (next a (x.session, x.transport)).2
        now := x.now
        readers := x.readers ++ e.newcomers x.now
        learned := x.learned ++ x.news e } := by
  unfold attend
  rw [h]

theorem learned_attend (e : Event σ) (x : Audience σ) :
    (attend e x).learned = x.learned ++ x.news e := by
  cases ha : x.action? e with
  | some a => rw [attend_some ha]
  | none =>
    have hnews : x.news e = [] := by simp [news, ha]
    rcases attend_none ha with h | ⟨time, -, -, -, h⟩ <;> rw [h, hnews, List.append_nil]

omit [Transport σ] in
theorem time_of_news {x : Audience σ} {e : Event σ} {a : Learned} (h : a ∈ x.news e) :
    a.time = x.now := by
  obtain ⟨_, -, rfl⟩ := List.mem_map.mp h
  rfl

/-- The ways in which an event goes, as those who read see it. -/
inductive Turn (x : Audience σ) : Event σ → Audience σ → Prop
  | apart {e : Event σ} {p : Session × σ} : Acts (x.session, x.transport) p →
      Turn x e { x with session := p.1, transport := p.2 }
  | passed {time : Millis} : x.now < time → x.still time = true →
      Turn x (.pass time) { x with now := time }
  /-- A caller lines up. -/
  | waits {span : Millis} : x.session.readers ≠ [] ∨ x.session.take = (none, x.session) →
      Turn x (.read span)
        { x with
          session := { x.session with readers := x.session.readers ++ [x.readers.length] }
          readers := x.readers ++ [⟨x.now, span⟩] }
  /-- A caller that is alone finds something at once. -/
  | finds {span : Millis} {outcome : ReadOutcome} {s : Session} : x.session.readers = [] →
      x.session.take = (some outcome, s) →
      Turn x (.read span)
        { x with
          session := s
          readers := x.readers ++ [⟨x.now, span⟩]
          learned := x.learned ++ [⟨x.readers.length, x.now, outcome⟩] }
  /-- A caller without time goes away. -/
  | hurries : x.session.readers ≠ [] ∨ x.session.take = (none, x.session) →
      Turn x (.read 0)
        { x with
          readers := x.readers ++ [⟨x.now, 0⟩]
          learned := x.learned ++ [⟨x.readers.length, x.now, x.session.idle⟩] }
  /-- The first in line finds something. -/
  | served {e : Event σ} {ticket : Ticket} {rest : List Ticket} {outcome : ReadOutcome}
      {s : Session} : e.newcomers x.now = [] → x.session.readers = ticket :: rest →
      x.session.take = (some outcome, s) →
      Turn x e
        { x with
          session := { s with readers := rest }
          learned := x.learned ++ [⟨ticket, x.now, outcome⟩] }
  /-- A caller whose time is up goes away. -/
  | leaves {ticket : Ticket} : x.overdue ticket = true →
      (x.session.readers.head? = some ticket → x.session.take = (none, x.session)) →
      Turn x (.expire ticket)
        { x with
          session := { x.session with readers := x.session.readers.filter (· ≠ ticket) }
          learned := x.learned ++ [⟨ticket, x.now, x.session.idle⟩] }

theorem turn_serve {x : Audience σ} {e : Event σ} (h : x.action? e = some .serve)
    (he : e.newcomers x.now = []) : Turn x e (attend e x) := by
  have hx := attend_some h
  rw [he, List.append_nil, news, h] at hx
  rcases x.session.serveFirst_cases with ⟨hs, -⟩ | ⟨ticket, rest, outcome, s, hline, ht, hs⟩
  · rw [hx]
    simpa [next, told, hs] using Turn.apart (e := e) (.refl (x.session, x.transport))
  · rw [hx]
    simpa [next, told, hs] using Turn.served he hline ht

omit [Transport σ] in
theorem mem_of_overdue {x : Audience σ} {ticket : Ticket} (h : x.overdue ticket = true) :
    ticket ∈ x.session.readers ∧ ∃ r, x.readers[ticket]? = some r ∧ r.deadline ≤ x.now := by
  obtain ⟨hline, hdue⟩ := Bool.and_eq_true_iff.mp h
  obtain ⟨r, hr, hle⟩ := (Option.any_eq_true _ _).mp hdue
  exact ⟨by simpa using hline, r, hr, of_decide_eq_true hle⟩

theorem turn_expire {x : Audience σ} {ticket : Ticket} {a : Action σ}
    (h : x.action? (.expire ticket) = some a) :
    Turn x (.expire ticket) (attend (.expire ticket) x) := by
  have ha := h
  change (if x.overdue ticket then _ else none) = some a at ha
  split at ha
  · rename_i hover
    split at ha
    · cases ha
      exact turn_serve h rfl
    · rename_i hnot
      cases ha
      obtain ⟨hline, -⟩ := mem_of_overdue hover
      have hfirst : x.session.readers.head? = some ticket → x.session.take = (none, x.session) := by
        intro hhead
        rcases x.session.serveFirst_cases with ⟨-, hempty | ht⟩ | ⟨_, _, _, _, -, -, hs⟩
        · simp [hempty] at hhead
        · exact ht
        · simp [hhead, hs] at hnot
      rw [attend_some h, news, h]
      simpa [Event.newcomers, next, told, hline, leave] using Turn.leaves hover hfirst
  · cases ha

theorem turn (e : Event σ) (x : Audience σ) : Turn x e (attend e x) := by
  cases ha : x.action? e with
  | none =>
    rcases attend_none ha with h | ⟨time, rfl, hlt, hstill, h⟩
    · rw [h]
      exact .apart (.refl _)
    · rw [h]
      exact .passed hlt hstill
  | some a =>
    cases e with
    | happen b =>
      have hb : b.Silent ∧ b = a := by
        change (if b.Silent then some b else none) = some a at ha
        split at ha
        · exact ⟨‹_›, Option.some.inj ha⟩
        · cases ha
      obtain ⟨hsilent, rfl⟩ := hb
      have htold : x.session.told b = none := by cases b <;> first | rfl | cases hsilent
      rw [attend_some ha, news, ha]
      simpa [Event.newcomers, htold] using Turn.apart (e := .happen b) (Acts.single _ hsilent)
    | read span =>
      obtain rfl := Option.some.inj ha
      rw [attend_some ha, news, ha]
      rcases x.session.join_cases x.readers.length (0 < span) with
        ⟨hline, outcome, s, ht, hj⟩ | ⟨hwhy, ⟨-, hj⟩ | ⟨hspan, hj⟩⟩
      · simpa [Event.newcomers, next, told, hj] using (.finds hline ht : Turn x (.read span) _)
      · simpa [Event.newcomers, next, told, hj] using (.waits hwhy : Turn x (.read span) _)
      · obtain rfl : span = 0 := by simpa using hspan
        rw [decide_eq_false (Nat.lt_irrefl 0)] at hj ⊢
        simpa [Event.newcomers, next, told, hj] using Turn.hurries hwhy
    | wake => exact turn_serve rfl rfl
    | expire ticket => exact turn_expire ha
    | pass => cases ha

end Audience

end MeshShell.Session
