import MeshShell.Proofs.Session.Audience
import Mathlib.Data.List.Nodup
import MeshShell.Simulation.Network

/-! # Callers that overtake the output

Who learns that the session is closed finds its queue empty, and nobody learns
anything else later. This holds as long as nobody further back in the line goes
away from a closed session before its output was fetched: such a caller is told of
the end ahead of the output. Nobody has to wait at a closed session, and nobody
comes away with nothing before its time is up.
-/
namespace MeshShell.Session

namespace Audience

variable {σ : Type} {x y : Audience σ} {e : Event σ} {new : List Learned}

/-- A caller goes away that is not the first. -/
def Behind (x : Audience σ) : Event σ → Prop
  | .read span => span = 0 ∧ x.session.readers ≠ []
  | .expire ticket => x.overdue ticket = true ∧ x.session.readers.head? ≠ some ticket
  | _ => False

/-- It goes away from a closed session that has output in its queue. -/
def Overtakes (x : Audience σ) (e : Event σ) : Prop :=
  x.session.closed = true ∧ x.session.queued ≠ [] ∧ x.Behind e

/-- Who reads is in line or has learned something, and not both. -/
structure Kept (x : Audience σ) : Prop where
  consistent : x.session.Consistent
  distinct : x.session.readers.Nodup
  due : ∀ t ∈ x.session.readers, ∃ r, x.readers[t]? = some r ∧ x.now ≤ r.deadline
  answered : ∀ t < x.readers.length, t ∈ x.session.readers ∨ ∃ a ∈ x.learned, a.ticket = t
  once : (x.learned.map (·.ticket)).Nodup
  gone : ∀ a ∈ x.learned, a.ticket < x.readers.length ∧ a.ticket ∉ x.session.readers

theorem Kept.drawn (hx : Kept x) {t : Ticket} (ht : t ∈ x.session.readers) : t < x.readers.length := by
  obtain ⟨r, hr, -⟩ := hx.due t ht
  exact (List.getElem?_eq_some_iff.mp hr).1

theorem Kept.once_snoc (hx : Kept x) {t : Ticket} (hnew : ∀ a ∈ x.learned, a.ticket ≠ t)
    (time : Millis) (o : ReadOutcome) :
    ((x.learned ++ [(⟨t, time, o⟩ : Learned)]).map (·.ticket)).Nodup := by
  rw [List.map_append]
  refine List.nodup_append.mpr ⟨hx.once, by simp, ?_⟩
  intro u hu v hv
  obtain ⟨a, ha, rfl⟩ := List.mem_map.mp hu
  obtain rfl : v = t := by simpa using hv
  exact hnew a ha

theorem Kept.due_snoc (hx : Kept x) (r : Reader) {t : Ticket} (ht : t ∈ x.session.readers) :
    ∃ r', (x.readers ++ [r])[t]? = some r' ∧ x.now ≤ r'.deadline := by
  obtain ⟨r', hr', hle⟩ := hx.due t ht
  exact ⟨r', List.getElem?_append_left (hx.drawn ht) ▸ hr', hle⟩

/-- Someone in line learns something and leaves. -/
theorem Kept.leave (hx : Kept x) {t : Ticket} (ht : t ∈ x.session.readers) {s : Session}
    (hs : s.Consistent) (hline : s.readers = x.session.readers.filter (· ≠ t)) (o : ReadOutcome) :
    Kept { x with session := s, learned := x.learned ++ [⟨t, x.now, o⟩] } where
  consistent := hs
  distinct := by
    rw [hline]
    exact hx.distinct.filter _
  due := by
    intro u hu
    rw [hline] at hu
    exact hx.due u (List.mem_filter.mp hu).1
  answered := by
    intro u hu
    rcases hx.answered u hu with hin | ⟨a, ha, hat⟩
    · by_cases hut : u = t
      · exact .inr ⟨_, List.mem_append_right _ (List.mem_singleton_self _), hut.symm⟩
      · exact .inl (by simp [hline, hin, hut])
    · exact .inr ⟨a, List.mem_append_left _ ha, hat⟩
  once := hx.once_snoc (fun a ha hat => (hx.gone a ha).2 (hat ▸ ht)) _ _
  gone := by
    intro a ha
    rcases List.mem_append.mp ha with ha | ha
    · obtain ⟨hlt, hnot⟩ := hx.gone a ha
      exact ⟨hlt, fun hin => hnot (List.mem_filter.mp (hline ▸ hin)).1⟩
    · obtain rfl := List.mem_singleton.mp ha
      exact ⟨hx.drawn ht, by simp [hline]⟩

/-- Someone comes and learns something at once. -/
theorem Kept.come (hx : Kept x) {s : Session} (hs : s.Consistent)
    (hline : s.readers = x.session.readers) (r : Reader) (o : ReadOutcome) :
    Kept { x with
      session := s
      readers := x.readers ++ [r]
      learned := x.learned ++ [⟨x.readers.length, x.now, o⟩] } where
  consistent := hs
  distinct := hline ▸ hx.distinct
  due := fun u hu => hx.due_snoc r (hline ▸ hu)
  answered := by
    intro u hu
    rcases Nat.lt_succ_iff_lt_or_eq.mp (by simpa using hu) with hu | rfl
    · rcases hx.answered u hu with hin | ⟨a, ha, hat⟩
      · exact .inl (hline ▸ hin)
      · exact .inr ⟨a, List.mem_append_left _ ha, hat⟩
    · exact .inr ⟨_, List.mem_append_right _ (List.mem_singleton_self _), rfl⟩
  once := hx.once_snoc (fun a ha => Nat.ne_of_lt (hx.gone a ha).1) _ _
  gone := by
    intro a ha
    rcases List.mem_append.mp ha with ha | ha
    · obtain ⟨hlt, hnot⟩ := hx.gone a ha
      exact ⟨by simpa using Nat.lt_succ_of_lt hlt, hline ▸ hnot⟩
    · obtain rfl := List.mem_singleton.mp ha
      exact ⟨by simp, fun hin => Nat.lt_irrefl _ (hx.drawn (hline ▸ hin))⟩

/-- Someone comes and lines up. -/
theorem Kept.lineUp (hx : Kept x) (span : Millis) :
    Kept { x with
      session := { x.session with readers := x.session.readers ++ [x.readers.length] }
      readers := x.readers ++ [⟨x.now, span⟩] } where
  consistent := hx.consistent.withReaders _
  distinct := by
    refine List.nodup_append.mpr ⟨hx.distinct, by simp, ?_⟩
    intro u hu v hv huv
    obtain rfl := List.mem_singleton.mp hv
    exact Nat.ne_of_lt (hx.drawn hu) huv
  due := by
    intro u hu
    rcases List.mem_append.mp hu with hu | hu
    · exact hx.due_snoc _ hu
    · obtain rfl := List.mem_singleton.mp hu
      exact ⟨⟨x.now, span⟩, by simp, Nat.le_add_right _ _⟩
  answered := by
    intro u hu
    rcases Nat.lt_succ_iff_lt_or_eq.mp (by simpa using hu) with hu | rfl
    · rcases hx.answered u hu with hin | hlearned
      · exact .inl (List.mem_append_left _ hin)
      · exact .inr hlearned
    · exact .inl (List.mem_append_right _ (List.mem_singleton_self _))
  once := hx.once
  gone := by
    intro a ha
    obtain ⟨hlt, hnot⟩ := hx.gone a ha
    refine ⟨by simpa using Nat.lt_succ_of_lt hlt, fun hin => ?_⟩
    rcases List.mem_append.mp hin with hin | hin
    · exact hnot hin
    · exact Nat.ne_of_lt hlt (List.mem_singleton.mp hin)

theorem Kept.due_of_still (hx : Kept x) {time : Millis} (h : x.still time = true) {t : Ticket}
    (ht : t ∈ x.session.readers) : ∃ r, x.readers[t]? = some r ∧ time ≤ r.deadline := by
  obtain ⟨r, hr, -⟩ := hx.due t ht
  have hall := List.all_eq_true.mp (Bool.and_eq_true_iff.mp h).2 t ht
  exact ⟨r, hr, by simpa [hr] using hall⟩

variable [Transport σ]

theorem Turn.kept (ht : Turn x e y) (hx : Kept x) : Kept y := by
  cases ht with
  | @apart _ p hacts =>
    have hline : p.1.readers = x.session.readers := hacts.readers
    obtain ⟨hist, hr, -⟩ := hacts
    exact
      { hx with
        consistent := hx.consistent.of_run hr
        distinct := hline ▸ hx.distinct
        due := fun t ht => hx.due t (hline ▸ ht)
        answered := fun t ht => hline ▸ hx.answered t ht
        gone := fun a ha => hline ▸ hx.gone a ha }
  | passed _ hstill => exact { hx with due := fun t ht => hx.due_of_still hstill ht }
  | waits => exact hx.lineUp _
  | @finds span outcome s hempty htake =>
    have hs := htake ▸ hx.consistent.take
    obtain ⟨queue, rfl⟩ := take_frame htake
    exact hx.come hs rfl _ outcome
  | hurries => exact hx.come hx.consistent rfl _ _
  | @served _ ticket rest outcome s _ hline htake =>
    have hs := htake ▸ hx.consistent.take
    obtain ⟨queue, rfl⟩ := take_frame htake
    have hrest : rest = x.session.readers.filter (· ≠ ticket) := by
      have hnot := (List.nodup_cons.mp (hline ▸ hx.distinct)).1
      rw [hline, List.filter_cons_of_neg (by simp)]
      exact (List.filter_eq_self.mpr fun u hu => by simpa using fun h : u = ticket => hnot (h ▸ hu)).symm
    exact hx.leave (by simp [hline]) (hs.withReaders rest) hrest outcome
  | leaves hover => exact hx.leave (mem_of_overdue hover).1 (hx.consistent.withReaders _) rfl _

/-- Who learns something has found it in the queue, or goes away because its time is up. -/
theorem Turn.told (ht : Turn x e y) (hx : Kept x) (hl : y.learned = x.learned ++ new) {a : Learned}
    (ha : a ∈ new) :
    (∃ s line, x.session.take = (some a.outcome, s) ∧ y.session = { s with readers := line }) ∨
    a.outcome = x.session.idle ∧ (∃ line, y.session = { x.session with readers := line }) ∧
      (x.session.take = (none, x.session) ∨ x.Behind e) ∧
      ∃ r, y.readers[a.ticket]? = some r ∧ r.deadline = x.now := by
  have hone : ∀ b : Learned, y.learned = x.learned ++ [b] → a = b := by
    intro b hb
    obtain rfl : [b] = new := List.append_cancel_left (hb.symm.trans hl)
    exact List.mem_singleton.mp ha
  cases ht with
  | apart => simp [List.self_eq_append_right.mp hl] at ha
  | passed => simp [List.self_eq_append_right.mp hl] at ha
  | waits => simp [List.self_eq_append_right.mp hl] at ha
  | @finds span outcome s _ htake =>
    obtain rfl := hone _ rfl
    exact .inl ⟨s, s.readers, htake, rfl⟩
  | hurries hwhy =>
    obtain rfl := hone _ rfl
    refine .inr ⟨rfl, ⟨_, rfl⟩, ?_, ⟨x.now, 0⟩, by simp, rfl⟩
    exact hwhy.symm.imp_right fun hline => ⟨rfl, hline⟩
  | @served _ ticket rest outcome s _ _ htake =>
    obtain rfl := hone _ rfl
    exact .inl ⟨s, rest, htake, rfl⟩
  | @leaves ticket hover hfirst =>
    obtain rfl := hone _ rfl
    obtain ⟨hline, r, hr, hle⟩ := mem_of_overdue hover
    obtain ⟨r', hr', hge⟩ := hx.due ticket hline
    obtain rfl : r = r' := Option.some.inj (hr.symm.trans hr')
    refine .inr ⟨rfl, ⟨_, rfl⟩, ?_, r, hr, Nat.le_antisymm hle hge⟩
    by_cases hhead : x.session.readers.head? = some ticket
    · exact .inl (hfirst hhead)
    · exact .inr ⟨hover, hhead⟩

theorem patient_news (hx : Kept x) {a : Learned} (ha : a ∈ x.news e) (hempty : a.outcome = .empty) :
    (∃ r, (attend e x).readers[a.ticket]? = some r ∧ a.time = r.deadline) ∧
      (attend e x).session.closed = false := by
  have htime : a.time = x.now := time_of_news ha
  rcases (turn e x).told hx (learned_attend e x) ha with
    ⟨s, line, htake, -⟩ | ⟨hidle, ⟨line, hs⟩, -, r, hr, hdue⟩
  · exact absurd (hempty ▸ htake) take_ne_empty
  · refine ⟨⟨r, hr, htime.trans hdue.symm⟩, ?_⟩
    rw [hs]
    exact idle_eq_empty_iff.mp (hidle.symm.trans hempty)

/-- Who learns of the end finds nothing in the queue, unless it overtakes what is there. -/
theorem drained_news (hx : Kept x) (ho : ¬ x.Overtakes e) {a : Learned} (ha : a ∈ x.news e)
    (hend : a.outcome = .disconnected) :
    (attend e x).session.closed = true ∧ (attend e x).session.queued = [] := by
  rcases (turn e x).told hx (learned_attend e x) ha with
    ⟨s, line, htake, hs⟩ | ⟨hidle, ⟨line, hs⟩, hwhy, -⟩
  · have hlast : x.session.take = (some .disconnected, s) := hend ▸ htake
    have hdone := take_disconnected hx.consistent hlast
    rw [hs]
    exact hdone
  · have hclosed : x.session.closed = true := idle_eq_disconnected_iff.mp (hidle.symm.trans hend)
    rcases hwhy with htake | hbehind
    · simp [open_of_take htake] at hclosed
    · rw [hs]
      exact ⟨hclosed, by_contra fun hq => ho ⟨hclosed, hq, hbehind⟩⟩

theorem final_news (hx : Kept x) (hclosed : x.session.closed = true) (hq : x.session.queued = [])
    {a : Learned} (ha : a ∈ x.news e) : a.outcome = .disconnected := by
  rcases (turn e x).told hx (learned_attend e x) ha with ⟨s, line, htake, -⟩ | ⟨hidle, -⟩
  · exact take_closed hclosed hq htake
  · exact hidle.trans (idle_eq_disconnected_iff.mpr hclosed)

theorem Turn.closed (ht : Turn x e y) (hclosed : x.session.closed = true) : y.session.closed = true := by
  cases ht with
  | apart hacts =>
    obtain ⟨hist, hr, -⟩ := hacts
    exact closed_of_run hr hclosed
  | finds _ htake =>
    obtain ⟨queue, rfl⟩ := take_frame htake
    exact hclosed
  | served _ _ htake =>
    obtain ⟨queue, rfl⟩ := take_frame htake
    exact hclosed
  | _ => exact hclosed

theorem Turn.queued (ht : Turn x e y) (hx : Kept x) (hclosed : x.session.closed = true)
    (hq : x.session.queued = []) : y.session.queued = [] := by
  have htook : ∀ outcome s line, x.session.take = (some outcome, s) →
      { s with readers := line }.queued = [] := by
    intro outcome s line htake
    exact (List.append_eq_nil_iff.mp ((queued_take htake).trans hq)).2
  cases ht with
  | apart hacts => exact (hacts.queued hx.consistent hclosed).trans hq
  | finds _ htake => exact htook _ _ _ htake
  | served _ _ htake => exact htook _ _ _ htake
  | _ => exact hq

theorem Turn.grows (ht : Turn x e y) : ∃ new, y.learned = x.learned ++ new := by
  cases ht with
  | finds => exact ⟨_, rfl⟩
  | hurries => exact ⟨_, rfl⟩
  | served => exact ⟨_, rfl⟩
  | leaves => exact ⟨_, rfl⟩
  | _ => exact ⟨[], (List.append_nil _).symm⟩

/-- Nobody leaves the line without an answer. -/
theorem Turn.answers (ht : Turn x e y) {t : Ticket} (hline : t ∈ x.session.readers) :
    t ∈ y.session.readers ∨ ∃ a ∈ y.learned, a.ticket = t ∧ a.time = x.now := by
  cases ht with
  | apart hacts => exact .inl (hacts.readers ▸ hline)
  | waits => exact .inl (List.mem_append_left _ hline)
  | finds _ htake =>
    obtain ⟨queue, rfl⟩ := take_frame htake
    exact .inl hline
  | @served _ ticket rest outcome s _ hfirst htake =>
    rcases List.mem_cons.mp (hfirst ▸ hline) with rfl | hrest
    · exact .inr ⟨⟨t, x.now, outcome⟩, by simp, rfl, rfl⟩
    · exact .inl hrest
  | @leaves ticket =>
    by_cases ht : t = ticket
    · exact .inr ⟨⟨t, x.now, x.session.idle⟩, by simp [ht], rfl, rfl⟩
    · exact .inl (by simp [hline, ht])
  | _ => exact .inl hline

omit [Transport σ] in
theorem readers_of_still {time : Millis} (hclosed : x.session.closed = true)
    (h : x.still time = true) : x.session.readers = [] := by
  rcases x.session.serveFirst_cases with ⟨-, hempty | htake⟩ | ⟨ticket, rest, outcome, s, -, -, hs⟩
  · exact hempty
  · simp [open_of_take htake] at hclosed
  · simp [still, hs] at h

theorem Turn.now (ht : Turn x e y) :
    y.now = x.now ∨ y.session = x.session ∧ x.still y.now = true := by
  cases ht with
  | passed _ hstill => exact .inr ⟨rfl, hstill⟩
  | _ => exact .inl rfl

/-- A caller that was in line at a closed session at the given time has its answer from then, or
it is still then. -/
def Released (x : Audience σ) (time : Millis) (t : Ticket) : Prop :=
  x.session.closed = true ∧
    (t ∈ x.session.readers ∧ x.now = time ∨ ∃ a ∈ x.learned, a.ticket = t ∧ a.time = time)

theorem Turn.released (ht : Turn x e y) {time : Millis} {t : Ticket} (h : x.Released time t) :
    y.Released time t := by
  obtain ⟨hclosed, ⟨hline, htime⟩ | ⟨a, ha, hat⟩⟩ := h
  · refine ⟨ht.closed hclosed, ?_⟩
    rcases ht.answers hline with hstays | ⟨a, ha, hat, hnow⟩
    · refine .inl ⟨hstays, ?_⟩
      rcases ht.now with hnow | ⟨-, hstill⟩
      · exact hnow.trans htime
      · exact absurd hline (by simp [readers_of_still hclosed hstill])
    · exact .inr ⟨a, ha, hat, hnow.trans htime⟩
  · obtain ⟨new, hnew⟩ := ht.grows
    exact ⟨ht.closed hclosed, .inr ⟨a, hnew ▸ List.mem_append_left _ ha, hat⟩⟩

theorem released_of_run {hist : List (Audience σ × Event σ)} (hr : Run attend x hist y) {time : Millis}
    {t : Ticket} (h : x.Released time t) : y.Released time t :=
  hr.invariant h fun e u hu => (turn e u).released hu

theorem wake_closed (hclosed : x.session.closed = true) :
    (attend .wake x).session.readers = x.session.readers.tail := by
  rw [attend_some (a := .serve) rfl]
  change x.session.serveFirst.2.readers = _
  rcases x.session.serveFirst_cases with ⟨hs, hempty | htake⟩ | ⟨ticket, rest, outcome, s, hline, -, hs⟩
  · simp [hs, hempty]
  · simp [open_of_take htake] at hclosed
  · simp [hs, hline]

theorem readers_wakes (hclosed : x.session.closed = true) :
    (reach attend x (List.replicate x.session.readers.length .wake)).session.readers = [] := by
  generalize hline : x.session.readers = line
  induction line generalizing x with
  | nil => exact hline
  | cons ticket rest ih =>
    have hrest := wake_closed hclosed
    rw [hline] at hrest
    exact ih ((turn .wake x).closed hclosed) hrest

omit [Transport σ] in
theorem news_alone (hline : x.session.readers = [])
    (hwhy : x.session.closed = true ∨ x.session.queued ≠ []) (span : Millis) :
    ∃ outcome, outcome ≠ .empty ∧ x.news (.read span) = [⟨x.readers.length, x.now, outcome⟩] := by
  rcases x.session.join_cases x.readers.length (0 < span) with
    ⟨-, outcome, s, htake, hj⟩ | ⟨hne | htake, -⟩
  · refine ⟨outcome, fun h => take_ne_empty (h ▸ htake), ?_⟩
    simp [news, action?, told, hj]
  · exact absurd hline hne
  · rcases hwhy with hclosed | hq
    · simp [open_of_take htake] at hclosed
    · exact absurd (queued_of_take_none htake) hq

/-- Who overtakes the output learns of the end and leaves the output where it is. -/
theorem news_overtaking (ho : x.Overtakes e) :
    (∃ a ∈ x.news e, a.outcome = .disconnected) ∧
      (attend e x).session.queued = x.session.queued := by
  obtain ⟨hclosed, -, hbehind⟩ := ho
  have hidle : x.session.idle = .disconnected := idle_eq_disconnected_iff.mpr hclosed
  cases e with
  | read span =>
    obtain ⟨rfl, hline⟩ := hbehind
    have hj : x.session.join x.readers.length false = (some x.session.idle, x.session) := by
      unfold join
      cases hr : x.session.readers with
      | nil => exact absurd hr hline
      | cons => simp
    constructor
    · exact ⟨⟨x.readers.length, x.now, x.session.idle⟩, by simp [news, action?, told, hj], hidle⟩
    · rw [attend_some (a := .read x.readers.length false) rfl]
      simp [next, hj]
  | expire ticket =>
    obtain ⟨hover, hhead⟩ := hbehind
    have ha : x.action? (.expire ticket) = some (.expire ticket) := by simp [action?, hover, hhead]
    constructor
    · refine ⟨⟨ticket, x.now, x.session.idle⟩, ?_, hidle⟩
      simp [news, ha, told, (mem_of_overdue hover).1, leave]
    · rw [attend_some ha]
      rfl
  | _ => exact absurd hbehind not_false

omit [Transport σ] in
theorem pairwise_news (x : Audience σ) (e : Event σ) (R : Learned → Learned → Prop) :
    (x.news e).Pairwise R := by
  unfold news
  cases (x.action? e).bind x.session.told <;> simp

/-- As long as whoever learns of the end finds the queue empty, nobody learns anything else
afterwards, since the queue of a closed session stays empty. -/
theorem ended_of_run {hist : List (Audience σ × Event σ)} (hr : Run attend x hist y) (hx : Kept x)
    (hnew : x.learned = [])
    (hd : ∀ u e, (u, e) ∈ hist → ∀ a ∈ u.news e, a.outcome = .disconnected →
      (attend e u).session.closed = true ∧ (attend e u).session.queued = []) :
    y.learned.Pairwise (fun a b => a.outcome = .disconnected → b.outcome = .disconnected) ∧
      ((∃ a ∈ y.learned, a.outcome = .disconnected) →
        y.session.closed = true ∧ y.session.queued = []) := by
  induction hr with
  | nil => simp [hnew]
  | @snoc hist u e hr ih =>
    obtain ⟨hpairs, hended⟩ := ih fun u e hm => hd u e (List.mem_append_left _ hm)
    have hu : Kept u := hr.invariant hx fun e u hu => (turn e u).kept hu
    rw [learned_attend]
    constructor
    · refine List.pairwise_append.mpr ⟨hpairs, pairwise_news u e _, ?_⟩
      intro a ha b hb hend
      obtain ⟨hclosed, hq⟩ := hended ⟨a, ha, hend⟩
      exact final_news hu hclosed hq hb
    · rintro ⟨a, ha, hend⟩
      rcases List.mem_append.mp ha with ha | ha
      · obtain ⟨hclosed, hq⟩ := hended ⟨a, ha, hend⟩
        exact ⟨(turn e u).closed hclosed, (turn e u).queued hu hclosed hq⟩
      · exact hd u e (by simp) a ha hend

end Audience

/-- A new session on a clock, and what happens to it and to those who read from it. -/
structure Listening (σ : Type) where
  id : String
  destination : Destination
  settings : SessionSettings
  transport : σ
  start : Millis
  events : List (Audience.Event σ)

namespace Listening

open Audience

variable {σ : Type} [Transport σ]

def opening (x : Listening σ) : Audience σ :=
  { session := .new x.id x.destination x.settings
    transport := x.transport
    now := x.start
    readers := []
    learned := [] }

def history (x : Listening σ) : List (Audience σ × Event σ) := trail attend x.opening x.events

def outcome (x : Listening σ) : Audience σ := reach attend x.opening x.events

theorem run (x : Listening σ) : Run attend x.opening x.history x.outcome :=
  .of_actions attend x.opening x.events

/-- What readers can rely on. -/
structure Candid (x : Listening σ) : Prop where
  /-- The session lives a life in which its readers learn what they have learned. What they got,
  followed by what is in the queue, is the output that the driver took. -/
  lives : ∃ l : Life σ, l.outcome = (x.outcome.session, x.outcome.transport) ∧
    returned l.history = x.outcome.learned.map (·.outcome) ∧
    (x.outcome.learned.map (·.outcome)).filterMap ReadOutcome.bytes? ++ x.outcome.session.queued =
      (consumed l.history).filterMap Message.payload?
  /-- Everyone learns one thing, and waits for it in line. -/
  once : (x.outcome.learned.map (·.ticket)).Nodup ∧
    ∀ t < x.outcome.readers.length,
      t ∈ x.outcome.session.readers ∨ ∃ a ∈ x.outcome.learned, a.ticket = t
  /-- Who gets nothing has waited for the whole span, and the session is open. -/
  patient : ∀ u e, (u, e) ∈ x.history → ∀ a ∈ u.news e, a.outcome = .empty →
    (∃ r, (attend e u).readers[a.ticket]? = some r ∧ a.time = r.deadline) ∧
      a.time = u.now ∧ (attend e u).session.closed = false
  /-- Who is alone with a session that is closed or has output does not wait. -/
  prompt : ∀ u span, (u, .read span) ∈ x.history → u.session.readers = [] →
    u.session.closed = true ∨ u.session.queued ≠ [] →
    ∃ outcome, outcome ≠ .empty ∧ u.news (.read span) = [⟨u.readers.length, u.now, outcome⟩]
  /-- Who waits when the session closes is answered before time passes. -/
  released : ∀ u e, (u, e) ∈ x.history → u.session.closed = false →
    (attend e u).session.closed = true → ∀ t ∈ (attend e u).session.readers,
      t ∈ x.outcome.session.readers ∧ x.outcome.now = u.now ∨
        ∃ a ∈ x.outcome.learned, a.ticket = t ∧ a.time = u.now
  /-- Nobody has to wait at a closed session: everyone in line has an answer from the present
  moment as soon as all have looked. -/
  freed : x.outcome.session.closed = true → ∀ t ∈ x.outcome.session.readers,
    ∃ a ∈ (reach attend x.outcome
        (List.replicate x.outcome.session.readers.length .wake)).learned,
      a.ticket = t ∧ a.time = x.outcome.now

/-- The end is the last thing to learn, and by then the queue is empty. -/
structure Final (x : Listening σ) : Prop where
  final : x.outcome.learned.Pairwise fun a b => a.outcome = .disconnected → b.outcome = .disconnected
  drained : ∀ u e, (u, e) ∈ x.history → ∀ a ∈ u.news e, a.outcome = .disconnected →
    (attend e u).session.closed = true ∧ (attend e u).session.queued = []

omit [Transport σ] in
theorem kept_opening (x : Listening σ) : Kept x.opening where
  consistent := .new _ _ _
  distinct := .nil
  due := by simp [opening, Session.new]
  answered := by simp [opening]
  once := .nil
  gone := by simp [opening]

theorem kept (x : Listening σ) : Kept x.outcome :=
  x.run.invariant x.kept_opening fun e u hu => (turn e u).kept hu

theorem kept_of_mem (x : Listening σ) {u : Audience σ} {e : Event σ} (hm : (u, e) ∈ x.history) :
    Kept u :=
  x.run.always x.kept_opening (fun e u hu => (turn e u).kept hu) hm

/-- An event is an action of the session, from which as much is learned, or none. -/
theorem exists_life_attend {u : Audience σ} {l : Life σ} (hl : l.outcome = (u.session, u.transport))
    (hret : returned l.history = u.learned.map (·.outcome)) (e : Event σ) :
    ∃ l' : Life σ, l'.outcome = ((attend e u).session, (attend e u).transport) ∧
      returned l'.history = (attend e u).learned.map (·.outcome) := by
  cases ha : u.action? e with
  | none =>
    rcases attend_none ha with h | ⟨time, -, -, -, h⟩
    · exact ⟨l, by rw [h, hl], by rw [h, hret]⟩
    · exact ⟨l, by rw [h, hl], by rw [h, hret]⟩
  | some a =>
    obtain ⟨l', hl', hret'⟩ := exists_life hl (.single a (u.session, u.transport))
    rw [attend_some ha]
    refine ⟨l', hl', ?_⟩
    have hnews : (u.news e).map (·.outcome) = u.session.results a := by
      simp [news, ha, results_eq]
    rw [hret', hret, List.map_append, hnews]
    simp [returned]

theorem lives (x : Listening σ) :
    ∃ l : Life σ, l.outcome = (x.outcome.session, x.outcome.transport) ∧
      returned l.history = x.outcome.learned.map (·.outcome) := by
  refine x.run.invariant (P := fun u => ∃ l : Life σ, l.outcome = (u.session, u.transport) ∧
    returned l.history = u.learned.map (·.outcome)) ?_ ?_
  · exact ⟨⟨x.id, x.destination, x.settings, x.transport, []⟩, rfl, rfl⟩
  · rintro e u ⟨l, hl, hret⟩
    exact exists_life_attend hl hret e

theorem candid (x : Listening σ) : x.Candid where
  lives := by
    obtain ⟨l, hl, hret⟩ := x.lives
    have hqueue := returned_append_queued l.run (Consistent.new _ _ _) rfl
    rw [hret, hl] at hqueue
    exact ⟨l, hl, hret, hqueue⟩
  once := ⟨x.kept.once, x.kept.answered⟩
  patient := by
    intro u e hm a ha hempty
    obtain ⟨hdue, hopen⟩ := patient_news (x.kept_of_mem hm) ha hempty
    exact ⟨hdue, time_of_news ha, hopen⟩
  prompt := fun u span _ hline hwhy => news_alone hline hwhy span
  released := by
    intro u e hm hopen hclosed t ht
    obtain ⟨before, after, -, -, hafter⟩ := x.run.cut hm
    have hnow : (attend e u).now = u.now := by
      rcases (turn e u).now with hnow | ⟨hsame, -⟩
      · exact hnow
      · simp [hsame, hopen] at hclosed
    exact (released_of_run hafter ⟨hclosed, .inl ⟨ht, hnow⟩⟩).2
  freed := by
    intro hclosed t ht
    have hr := Run.of_actions attend x.outcome
      (List.replicate x.outcome.session.readers.length .wake)
    obtain ⟨-, ⟨hline, -⟩ | hlearned⟩ := released_of_run hr ⟨hclosed, .inl ⟨ht, rfl⟩⟩
    · simp [readers_wakes hclosed] at hline
    · exact hlearned

/-- The end is the last thing to learn exactly as long as nobody overtakes the output. -/
theorem final_iff_not_overtaken (x : Listening σ) :
    x.Candid ∧ (x.Final ↔ ∀ u e, (u, e) ∈ x.history → ¬ u.Overtakes e) := by
  refine ⟨x.candid, ?_, ?_⟩
  · intro h u e hm ho
    obtain ⟨⟨a, ha, hend⟩, hkept⟩ := news_overtaking ho
    exact ho.2.1 (hkept.symm.trans (h.drained u e hm a ha hend).2)
  · intro h
    have hdrained : ∀ u e, (u, e) ∈ x.history → ∀ a ∈ u.news e, a.outcome = .disconnected →
        (attend e u).session.closed = true ∧ (attend e u).session.queued = [] :=
      fun u e hm a ha hend => drained_news (x.kept_of_mem hm) (h u e hm) ha hend
    exact ⟨(ended_of_run x.run x.kept_opening rfl hdrained).1, hdrained⟩

/-- Three callers at a session of the simulated mesh. The second one waits behind the first when
its time is up, right after the remote has written twice and left. -/
def threeCallers : Listening Simulation.Network :=
  let destination : Destination := ⟨List.replicate 16 0x3c, rfl⟩
  let arrive (n : Simulation.Network) := n.deliver.2
  let talk (n : Simulation.Network) :=
    ((n.emit "r" (.stdout [97])).emit "r" (.stdout [98])).emit "r" (.commandExited 0)
  { id := "s", destination
    settings := { linkTimeout := 50, poll := 10, term := "xterm" }
    transport := Simulation.Network.empty.addStation destination "r" .unknown true
    start := 0
    events :=
      [.happen (.connect 0 24 80), .happen (.elsewhere arrive), .happen (.report .established),
        .happen .drive, .read 1000, .read 50, .pass 50,
        .happen (.elsewhere talk), .happen (.elsewhere arrive),
        .happen (.report (.message (.stdout [97]))), .happen (.report (.message (.stdout [98]))),
        .happen (.report (.message (.commandExited 0))),
        .happen .drive, .happen .drive, .happen .drive,
        .expire 1, .wake, .read 0] }

/-- The second caller learns of the end before anybody gets the output. -/
theorem not_final_overtaken :
    threeCallers.outcome.learned =
        [⟨1, 50, .disconnected⟩, ⟨0, 50, .data [97]⟩, ⟨2, 50, .data [98]⟩] ∧
      ¬ threeCallers.Final := by
  have hlearned : threeCallers.outcome.learned =
      [⟨1, 50, .disconnected⟩, ⟨0, 50, .data [97]⟩, ⟨2, 50, .data [98]⟩] := by decide +kernel
  refine ⟨hlearned, fun h => ?_⟩
  have hpairs := h.final
  rw [hlearned] at hpairs
  simp at hpairs

end Listening

end MeshShell.Session
