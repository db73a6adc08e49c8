import MeshShell.Proofs.Session.Consistency

/-! # One end mark, and nothing behind it

Over its whole life a session puts chunks into its queue and, when it closes, one
end mark as the last item of all. Which parts it has can be read off its phase:
only an active session is connected and has a channel, and any other one ignores
input and sizes.
-/
namespace MeshShell.Session

variable {σ : Type} [Transport σ]

/-- The items that an action puts into the queue. Readers put nothing there. -/
def puts (s : Session) (t : σ) (a : Action σ) : List Output :=
  match a with
  | .read .. => []
  | .serve => []
  | .expire _ => []
  | a => (next a (s, t)).1.output.drop s.output.length

/-- The items that an action takes out of the queue. -/
def picks (s : Session) (t : σ) (a : Action σ) : List Output :=
  s.output.take (s.output.length - (next a (s, t)).1.output.length)

/-- Everything that was ever put into the queue, in this order. -/
def everPut (hist : History σ) : List Output := hist.flatMap fun (p, a) => p.1.puts p.2 a

/-- Everything that was ever taken out of the queue, in this order. -/
def everPicked (hist : History σ) : List Output := hist.flatMap fun (p, a) => p.1.picks p.2 a

/-- The end mark that is put into the queue when the first of two states is open and the second is
not. -/
def endMark (s s' : Session) : List Output := if !s.closed && s'.closed then [.finish] else []

variable {s s' : Session} {t : σ} {a : Action σ}

omit [Transport σ] in
theorem endMark_same (h : s'.closed = s.closed) : endMark s s' = [] := by
  cases hc : s.closed <;> simp [endMark, h, hc]

/-- A session comes from another one by putting chunks into the queue, and an end mark behind them
if it has closed meanwhile. -/
def Fills (s s' : Session) : Prop :=
  ∃ chunks : List Bytes, s'.output = s.output ++ (chunks.map .chunk ++ endMark s s') ∧
    (s.closed = true → chunks = [])

theorem Fills.same (ho : s'.output = s.output) (hc : s'.closed = s.closed) : Fills s s' :=
  ⟨[], by simp [ho, endMark_same hc], fun _ => rfl⟩

theorem fills_shut (h : Consistent s) : Fills s s.shut := by
  by_cases hc : s.closed = true
  · rw [shut_of_closed hc]
    exact .same rfl rfl
  · have ho : s.outputOpen = true := by simpa [hc] using h.outputOpen
    exact ⟨[], by simp [shut, endMark, hc, ho], fun h => absurd h hc⟩

theorem fills_enqueue (h : Consistent s) (data : Bytes) : Fills s (s.enqueue data) := by
  unfold enqueue
  split
  · rename_i ho
    have hc : s.closed = false := by simpa [ho] using h.outputOpen
    exact ⟨[data], by simp [endMark, hc], by simp [hc]⟩
  · exact .same rfl rfl

@[simp] theorem output_push (s : Session) (e : LinkEvent) : (s.push e).output = s.output := by
  unfold push
  split <;> rfl

theorem Fills.congr {u : Session} (h : Fills s u) (ho : s'.output = u.output)
    (hc : s'.closed = u.closed) : Fills s s' := by
  obtain ⟨chunks, hu, hclosed⟩ := h
  exact ⟨chunks, by simpa [endMark, ho, hc] using hu, hclosed⟩

theorem Handled.fills {e : LinkEvent} (h : Consistent s) (hs : Handled s e s') : Fills s s' := by
  cases hs with
  | failed => exact fills_shut h
  | output => exact fills_enqueue h _
  | ended => exact fills_shut h
  | gone => exact (fills_shut h).congr rfl rfl
  | _ => exact .same rfl rfl

/-- Without readers the queue only grows. -/
theorem Effect.fills (h : Consistent s) (he : Effect s t a s') (ha : a.Silent) : Fills s s' := by
  cases he with
  | @refused now rows cols _ hd =>
    have hshut := h.dial (unstarted_of_dials hd) rows cols
    have hsame : (s.dial rows cols).shut.output = s.shut.output ∧
        (s.dial rows cols).shut.closed = s.shut.closed := by
      unfold shut dial
      split <;> exact ⟨rfl, rfl⟩
    exact (fills_shut h).congr hsame.1 hsame.2
  | finished => exact (fills_shut h).congr (by simp) (by simp)
  | reported => exact .same (by simp) (by simp)
  | handled _ _ hi hs =>
    have hf := hs.fills (h.withoutFirst hi)
    exact hf
  | took _ _ _ _ hn => exact absurd ha hn
  | lined _ _ _ hn => exact absurd ha hn
  | _ => exact .same rfl rfl

theorem take_front {outcome : Option ReadOutcome} (h : s.take = (outcome, s')) :
    ∃ front rest, s.output = front ++ rest ∧ s' = { s with output := rest } := by
  rcases s.take_cases with ⟨data, rest, ho, ht⟩ | ⟨rest, ho, ht⟩ | ⟨-, -, ht⟩ | ⟨-, -, -, ht⟩
  all_goals
    rw [ht] at h
    cases h
  · exact ⟨[.chunk data], rest, ho, rfl⟩
  · exact ⟨[.finish], rest, ho, rfl⟩
  · exact ⟨[], s.output, rfl, rfl⟩
  · exact ⟨[], s.output, rfl, rfl⟩

/-- Readers take from the front of the queue and move in line, and nothing else changes. -/
theorem reader_frame (s : Session) (t : σ) (ha : ¬ a.Silent) :
    ∃ front rest line, s.output = front ++ rest ∧
      (next a (s, t)).1 = { s with output := rest, readers := line } := by
  cases a with
  | read ticket patient =>
    dsimp only [next]
    rcases s.join_cases ticket patient with ⟨-, _, s', ht, he⟩ | ⟨-, ⟨-, he⟩ | ⟨-, he⟩⟩ <;> rw [he]
    · obtain ⟨front, rest, ho, rfl⟩ := take_front ht
      exact ⟨front, rest, s.readers, ho, rfl⟩
    · exact ⟨[], s.output, _, rfl, rfl⟩
    · exact ⟨[], s.output, s.readers, rfl, rfl⟩
  | serve =>
    dsimp only [next]
    rcases s.serveFirst_cases with ⟨he, -⟩ | ⟨_, line, _, s', -, ht, he⟩ <;> rw [he]
    · exact ⟨[], s.output, s.readers, rfl, rfl⟩
    · obtain ⟨front, rest, ho, rfl⟩ := take_front ht
      exact ⟨front, rest, line, ho, rfl⟩
  | expire ticket => exact ⟨[], s.output, _, rfl, rfl⟩
  | _ => exact absurd trivial ha

theorem puts_of_silent (s : Session) (t : σ) (ha : a.Silent) :
    s.puts t a = (next a (s, t)).1.output.drop s.output.length := by
  cases a with
  | read => cases ha
  | serve => cases ha
  | expire => cases ha
  | _ => rfl

theorem puts_of_reader (s : Session) (t : σ) (ha : ¬ a.Silent) : s.puts t a = [] := by
  cases a with
  | read => rfl
  | serve => rfl
  | expire => rfl
  | _ => exact absurd trivial ha

theorem puts_eq (h : Consistent s) (t : σ) (a : Action σ) :
    ∃ chunks : List Bytes, s.puts t a = chunks.map .chunk ++ endMark s (next a (s, t)).1 ∧
      (s.closed = true → chunks = []) := by
  by_cases ha : a.Silent
  · obtain ⟨chunks, ho, hc⟩ := (effect a s t).fills h ha
    exact ⟨chunks, by rw [puts_of_silent s t ha, ho, List.drop_left], hc⟩
  · obtain ⟨_, _, _, -, hnext⟩ := reader_frame s t ha
    have hsame : (next a (s, t)).1.closed = s.closed := by rw [hnext]
    exact ⟨[], by simp [puts_of_reader s t ha, endMark_same hsame], fun _ => rfl⟩

theorem output_append_puts (h : Consistent s) (t : σ) (a : Action σ) :
    s.output ++ s.puts t a = s.picks t a ++ (next a (s, t)).1.output := by
  by_cases ha : a.Silent
  · obtain ⟨chunks, ho, -⟩ := (effect a s t).fills h ha
    have hle : s.output.length ≤ (next a (s, t)).1.output.length := by simp [ho]
    rw [puts_of_silent s t ha, picks, Nat.sub_eq_zero_of_le hle, ho, List.drop_left]
    rfl
  · obtain ⟨front, rest, line, ho, hnext⟩ := reader_frame s t ha
    have hlen : s.output.length - rest.length = front.length := by
      rw [ho, List.length_append]
      omega
    have hfront : s.output.take front.length = front := by rw [ho, List.take_left]
    rw [puts_of_reader s t ha, List.append_nil, picks, hnext, hlen, hfront]
    exact ho

variable {start p : Session × σ} {hist : History σ}

theorem everPut_eq (hr : Run next start hist p) (hc : Consistent start.1)
    (ho : start.1.output = []) : everPut hist = everPicked hist ++ p.1.output := by
  induction hr with
  | nil => simp [everPut, everPicked, ho]
  | @snoc hist p a hr ih =>
    have hput : everPut (hist ++ [(p, a)]) = everPut hist ++ p.1.puts p.2 a := by simp [everPut]
    have hpick : everPicked (hist ++ [(p, a)]) = everPicked hist ++ p.1.picks p.2 a := by
      simp [everPicked]
    calc everPut (hist ++ [(p, a)])
        = everPicked hist ++ (p.1.output ++ p.1.puts p.2 a) := by
          rw [hput, ih, List.append_assoc]
      _ = everPicked hist ++ (p.1.picks p.2 a ++ (next a p).1.output) := by
          rw [output_append_puts (hc.of_run hr)]
      _ = everPicked (hist ++ [(p, a)]) ++ (next a p).1.output := by
          rw [hpick, List.append_assoc]

theorem everPut_chunks (hr : Run next start hist p) (hc : Consistent start.1)
    (hopen : start.1.closed = false) :
    ∃ chunks : List Bytes,
      everPut hist = chunks.map .chunk ++ if p.1.closed then [.finish] else [] := by
  induction hr with
  | nil => exact ⟨[], by simp [everPut, hopen]⟩
  | @snoc hist p a hr ih =>
    obtain ⟨chunks, hall⟩ := ih
    obtain ⟨new, hnew, hnone⟩ := puts_eq (hc.of_run hr) p.2 a
    have hput : everPut (hist ++ [(p, a)]) = everPut hist ++ p.1.puts p.2 a := by simp [everPut]
    rw [hput, hall, hnew]
    cases hclosed : p.1.closed with
    | true =>
      have hclosed' : (next a p).1.closed = true := (effect a p.1 p.2).closed hclosed
      exact ⟨chunks, by simp [hnone hclosed, endMark, hclosed, hclosed']⟩
    | false => exact ⟨chunks ++ new, by simp [endMark, hclosed]⟩

/-- The parts of a session tell the same story. -/
structure Coherent (l : Life σ) : Prop where
  connected : l.session.isConnected = true ↔ l.session.phase = .active
  channel : l.session.channel.isSome = true ↔ l.session.phase = .active
  closed : l.session.closed = true →
    l.session.isConnected = false ∧ l.session.connected = false ∧ l.session.channel = none
  /-- The queue takes items exactly as long as the session is open. -/
  outputOpen : l.session.outputOpen = !l.session.closed
  /-- One end mark is behind everything else if the session is closed, and none is there if not. -/
  queue : ∃ chunks : List Bytes,
    everPut l.history = chunks.map .chunk ++ if l.session.closed then [.finish] else []
  /-- Nothing is missing in this account of the queue. -/
  balance : everPut l.history = everPicked l.history ++ l.session.output
  input : l.session.phase ≠ .active → ∀ (data : Bytes) (t : σ), l.session.sendInput data t = (false, t)
  resize : l.session.phase ≠ .active → ∀ (size : Geometry) (t : σ), l.session.resize size t = (l.session, t)

namespace Consistent

theorem isConnected_iff (h : Consistent s) : s.isConnected = true ↔ s.phase = .active := by
  unfold isConnected
  rw [← h.connected_active, Bool.and_eq_true]
  refine ⟨And.left, fun hconn => ⟨hconn, ?_⟩⟩
  simpa using h.active_open (h.connected_active.mp hconn)

theorem inactive (h : Consistent s) (hp : s.phase ≠ .active) : s.connected = false ∧ s.channel = none := by
  constructor
  · simpa [hp] using h.connected_active
  · simpa [hp] using h.channel_active

theorem not_active_of_closed (h : Consistent s) (hc : s.closed = true) : s.phase ≠ .active := by
  intro hp
  simp [h.active_open hp] at hc

end Consistent

/-- Whatever happens to a session and in whatever order, its parts agree with its phase, and its
queue has one end mark if the session is closed and none before. -/
theorem coherent (l : Life σ) : Coherent l := by
  have h : Consistent l.session := l.consistent
  have hnew : Consistent l.start.1 := .new l.id l.destination l.settings
  exact
    { connected := h.isConnected_iff
      channel := h.channel_active
      closed := by
        intro hc
        obtain ⟨hconn, hch⟩ := h.inactive (h.not_active_of_closed hc)
        exact ⟨by simp [isConnected, hc], hconn, hch⟩
      outputOpen := h.outputOpen
      queue := everPut_chunks l.run hnew rfl
      balance := everPut_eq l.run hnew rfl
      input := by
        intro hp data t
        simp [sendInput, (h.inactive hp).2]
      resize := by
        intro hp size t
        simp [Session.resize, (h.inactive hp).2] }

end MeshShell.Session
