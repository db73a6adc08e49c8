import MeshShell.Proofs.Switchboard.Resolving

/-! # The outcome and duration of resolving

Whoever resolves a destination learns of the path at the first check that finds
it, or learns that there is none after as many intervals as it takes until the
span is over. In all calls together a path is asked for as often as somebody
needs it who does not find it.
-/
namespace MeshShell.Switchboard

variable {σ : Type} [Transport σ] {w : Switchboard σ}

/-- Whether a call needs the path to a destination. -/
def Call.needs (d : Destination) : Call σ → Bool
  | .requestPath e => e = d
  | .resolve e _ => e = d
  | _ => false

/-- The run under notes that begin with it. -/
def noted (w : Switchboard σ) (calls : List (Call σ)) : Switchboard (Asked σ) :=
  reach take (withAsks [] w) (calls.map Call.asked)

theorem count_seeks (s : Session) (t : σ) (d : Destination) : (s.seeks t).count (.path d) = 0 := by
  unfold Session.seeks
  cases Transport.recallIdentity s.destination t with
  | none => rfl
  | some identity =>
    dsimp only
    split <;> simp

theorem count_seeks_of_handle (w : Switchboard σ) (h : Handle) (d : Destination) :
    (w.seeks h).count (.path d) = 0 := by
  unfold seeks
  cases w.sessions[h]? with
  | none => rfl
  | some s => exact count_seeks s w.transport d

theorem count_wants_path (w : Switchboard σ) (e d : Destination) : (w.wants e).count (.path d) =
    if e = d ∧ Transport.hasPath d w.transport = false then 1 else 0 := by
  unfold wants
  by_cases he : e = d
  · subst he
    cases Transport.hasPath e w.transport <;> simp
  · cases Transport.hasPath e w.transport <;> simp [he]

theorem count_wants (w : Switchboard σ) (c : Call σ) (d : Destination) :
    (c.wants w).count (.path d) =
      if c.needs d && !Transport.hasPath d w.transport then 1 else 0 := by
  cases c with
  | connect h rows cols register => exact count_seeks_of_handle w h d
  | create id e rows cols =>
    exact count_seeks_of_handle (w.makeSession id e w.settings).2 w.sessions.length d
  | requestPath e => simpa [Call.needs, Call.wants] using count_wants_path w e d
  | resolve e span => simpa [Call.needs, Call.wants] using count_wants_path w e d
  | _ => rfl

theorem count_everWanted (hist : List (Switchboard σ × Call σ)) (d : Destination) :
    (everWanted hist).count (.path d) =
      hist.countP fun (u, c) => c.needs d && !Transport.hasPath d u.transport := by
  induction hist with
  | nil => rfl
  | cons first rest ih =>
    obtain ⟨u, c⟩ := first
    have hsplit : everWanted ((u, c) :: rest) = c.wants u ++ everWanted rest := rfl
    rw [hsplit, List.count_append, count_wants, ih, List.countP_cons, Nat.add_comm]

theorem noted_eq (w : Switchboard σ) (calls : List (Call σ)) :
    noted w calls = withAsks (everWanted (trail take w calls)) (reach take w calls) :=
  reach_asked [] w calls

theorem asks_noted (w : Switchboard σ) (calls : List (Call σ)) :
    (noted w calls).transport.asks = everWanted (trail take w calls) := by
  rw [noted_eq, transport_asked]

theorem asks_noted_single (w : Switchboard σ) (c : Call σ) :
    (noted w [c]).transport.asks = c.wants w := by
  rw [asks_noted]
  exact List.append_nil (c.wants w)

/-- What the transport is asked for in a run. -/
structure Inquiring (w : Switchboard σ) (calls : List (Call σ)) : Prop where
  /-- The notes change nothing. -/
  plainly : noted w calls = withAsks (noted w calls).transport.asks (reach take w calls)
  asked : ∀ d, (noted w calls).transport.asks.count (.path d) =
    (trail take w calls).countP fun (u, c) => c.needs d && !Transport.hasPath d u.transport

namespace Search

variable {x : Search σ}

theorem Vainly.unknown {checks : List (Switchboard σ)} (h : x.Vainly checks) {v : Switchboard σ}
    (hv : v ∈ checks) : ¬ x.Known v := by
  obtain ⟨k, hk⟩ := List.mem_iff_getElem?.mp hv
  exact (h k v hk).2

/-- Every check comes at its time, and only the last one may find the path. -/
theorem Reached.check {checks : List (Switchboard σ)} (h : x.Reached checks w) {k : Nat}
    {v : Switchboard σ} (hk : checks[k]? = some v) :
    k < x.rounds ∧ v.now = x.tick (k + 1) ∧ (k + 1 < checks.length → ¬ x.Known v) := by
  have hlt : k < checks.length := (List.getElem?_eq_some_iff.mp hk).1
  cases h with
  | waiting _ hvain hmore =>
    obtain ⟨hnow, hno⟩ := hvain k v hk
    exact ⟨hlt.trans hmore, hnow, fun _ => hno⟩
  | told hv _ =>
    cases hv with
    | known _ hnil => simp [hnil] at hlt
    | missed _ hvain hall =>
      obtain ⟨hnow, hno⟩ := hvain k v hk
      exact ⟨hall ▸ hlt, hnow, fun _ => hno⟩
    | @found past last _ hchecks hvain hmore hnow hpath =>
      subst hchecks
      rw [List.length_append, List.length_singleton] at hlt ⊢
      rw [List.getElem?_append] at hk
      split at hk
      · rename_i hearly
        obtain ⟨hnow', hno⟩ := hvain k v hk
        exact ⟨hearly.trans hmore, hnow', fun _ => hno⟩
      · rename_i hlate
        obtain rfl : k = past.length := by omega
        obtain rfl : last = v := by simpa using hk
        exact ⟨hmore, hnow, fun h => absurd h (Nat.lt_irrefl _)⟩

theorem Verdict.cases {checks : List (Switchboard σ)} {a : Answered} (h : x.Verdict checks a)
    (hno : ¬ x.Known x.board) :
    (∃ k v, k + 1 = checks.length ∧ checks[k]? = some v ∧ x.Known v ∧ a = x.answer (k + 1) true) ∨
      checks.length = x.rounds ∧ (∀ v ∈ checks, ¬ x.Known v) ∧ a = x.answer x.rounds false := by
  cases h with
  | known hknown => exact absurd hknown hno
  | @found past v _ hchecks _ _ _ hpath =>
    subst hchecks
    exact .inl ⟨past.length, v, by simp, by simp, hpath, rfl⟩
  | missed _ hvain hall => exact .inr ⟨hall, fun v hv => hvain.unknown hv, rfl⟩

theorem tick_lt {k : Nat} (h : ∀ j, j + 1 = k → j < x.rounds) : x.tick k < x.time + x.span + x.poll := by
  cases k with
  | zero =>
    rw [tick_zero, Nat.add_assoc]
    exact Nat.lt_add_of_pos_right (Nat.add_pos_right _ x.interval)
  | succ j =>
    rw [tick_succ]
    exact Nat.add_lt_add_right (lt_rounds_iff.mp (h j rfl)) _

theorem Verdict.soon {checks : List (Switchboard σ)} {a : Answered} (h : x.Verdict checks a) :
    a.time < x.time + x.span + x.poll := by
  cases h with
  | known => exact tick_lt (by simp)
  | @found past v _ _ _ hlt => exact tick_lt fun j hj => by omega
  | missed => exact tick_lt fun j hj => by omega

variable (x)

theorem tick_mono {k n : Nat} (h : k ≤ n) : x.tick k ≤ x.tick n :=
  Nat.add_le_add_left (Nat.mul_le_mul_right _ h) _

theorem told_or_waiting :
    (∃ a, x.outcome.answer? x.ticket = some a ∧ x.Verdict x.checks a) ∨
      x.outcome.answer? x.ticket = none ∧ ¬ x.Known x.board ∧ x.Vainly x.checks ∧
        x.checks.length < x.rounds ∧ Rings (x.timer (x.checks.length + 1)) x.outcome := by
  cases x.underway_outcome.reached with
  | waiting hno hvain hlt hrings => exact .inr ⟨hrings.answer, hno, hvain, hlt, hrings⟩
  | @told a hv hknows =>
    have hans := hknows.answer
    rw [hv.ticket] at hans
    exact .inl ⟨a, hans, hv⟩

theorem verdict_of_answer {a : Answered} (h : x.outcome.answer? x.ticket = some a) :
    x.Verdict x.checks a := by
  obtain ⟨a', hans, hv⟩ | ⟨hnone, -⟩ := x.told_or_waiting
  · obtain rfl : a' = a := Option.some.inj (hans.symm.trans h)
    exact hv
  · cases hnone.symm.trans h

theorem waiting_of_unanswered (h : x.outcome.answer? x.ticket = none) :
    x.Vainly x.checks ∧ x.checks.length < x.rounds ∧
      Rings (x.timer (x.checks.length + 1)) x.outcome := by
  obtain ⟨a, hans, -⟩ | ⟨-, -, hwaiting⟩ := x.told_or_waiting
  · cases h.symm.trans hans
  · exact hwaiting

/-- The run goes on with one more call. -/
def extend (c : Call σ) (h : c.punctual x.ticket x.outcome = true) : Search σ :=
  { x with
    later := x.later ++ [c]
    punctual := by
      rw [trail_append, List.all_append, x.punctual, Bool.true_and]
      exact (Bool.and_true _).trans h }

theorem outcome_extend {c : Call σ} (h : c.punctual x.ticket x.outcome = true) :
    (x.extend c h).outcome = x.outcome.take c := reach_append take x.resolved x.later [c]

theorem checks_extend {c : Call σ} (h : c.punctual x.ticket x.outcome = true) :
    (x.extend c h).checks =
      x.checks ++ if c.wakes x.ticket x.outcome then [x.outcome] else [] := by
  have hhist : (x.extend c h).history = x.history ++ [(x.outcome, c)] :=
    trail_append take x.resolved x.later [c]
  unfold checks
  rw [hhist]
  exact x.checksIn_snoc x.history x.outcome c

theorem punctual_advance {p : Pending} (hp : p ∈ x.outcome.waits) (ht : p.ticket = x.ticket) :
    (Call.advance p.wake : Call σ).punctual x.ticket x.outcome = true := by
  obtain ⟨readings, hgood⟩ := x.underway_outcome.good
  refine List.all_eq_true.mpr fun q hq => ?_
  by_cases hq' : q.ticket = x.ticket
  · have hsame : q = p := List.inj_on_of_nodup_map hgood.sound.booked.1 hq hp (hq'.trans ht.symm)
    simp [hsame]
  · simp [hq']

/-- The run can go on until the caller has its answer. -/
def Finishes (x : Search σ) : Prop :=
  ∃ more : List (Call σ),
    (trail take x.outcome more).all (fun (w, c) => c.punctual x.ticket w) = true ∧
      ((reach take x.outcome more).answer? x.ticket).isSome = true

variable {x} in
theorem Finishes.extend {c : Call σ} {h : c.punctual x.ticket x.outcome = true}
    (hy : (x.extend c h).Finishes) : x.Finishes := by
  obtain ⟨more, hpunctual, hans⟩ := hy
  rw [outcome_extend] at hpunctual hans
  exact ⟨c :: more, Bool.and_eq_true_iff.mpr ⟨h, hpunctual⟩, hans⟩

/-- Time goes on from check to check, and with each of them one less is left. -/
theorem finishes (x : Search σ) : x.Finishes := by
  induction hn : x.rounds - x.checks.length generalizing x with
  | zero =>
    refine ⟨[], rfl, ?_⟩
    by_contra hnone
    obtain ⟨-, hlt, -⟩ := x.waiting_of_unanswered (Option.not_isSome_iff_eq_none.mp hnone)
    exact Nat.sub_ne_zero_of_lt hlt hn
  | succ n ih =>
    cases hans : x.outcome.answer? x.ticket with
    | some a => exact ⟨[], rfl, Option.isSome_iff_exists.mpr ⟨a, hans⟩⟩
    | none =>
      obtain ⟨-, hlt, hrings⟩ := x.waiting_of_unanswered hans
      let p := x.timer (x.checks.length + 1)
      have hadvance := x.punctual_advance hrings.timer rfl
      let y := x.extend (.advance p.wake) hadvance
      have hchecks : y.checks = x.checks := by
        rw [x.checks_extend hadvance]
        exact List.append_nil _
      suffices hy : y.Finishes from hy.extend
      cases hans' : y.outcome.answer? y.ticket with
      | some a => exact ⟨[], rfl, Option.isSome_iff_exists.mpr ⟨a, hans'⟩⟩
      | none =>
        obtain ⟨-, -, hrings'⟩ := y.waiting_of_unanswered hans'
        have hp : p ∈ y.outcome.waits := by
          have htimer := hrings'.timer
          rw [hchecks] at htimer
          exact htimer
        have hnow : y.outcome.now = max x.outcome.now p.wake := by
          rw [x.outcome_extend hadvance]
          exact (steps_settle _).now
        have hwakes : (Call.expire p : Call σ).wakes y.ticket y.outcome = true :=
          decide_eq_true ⟨rfl, hp, hnow ▸ le_max_right _ _⟩
        have hexpire : (Call.expire p : Call σ).punctual y.ticket y.outcome = true := rfl
        suffices hz : (y.extend (.expire p) hexpire).Finishes from hz.extend
        refine ih _ (?_ : x.rounds - _ = n)
        rw [y.checks_extend hexpire, if_pos hwakes, hchecks, List.length_append, ← Nat.sub_sub, hn]
        rfl

/-- What a caller that resolves a destination can rely on. -/
structure Prompt (x : Search σ) : Prop where
  /-- The path is asked for once, and only if it is not known. -/
  asks : (noted x.board [.resolve x.destination x.span]).transport.asks =
    if Transport.hasPath x.destination x.board.transport then [] else [.path x.destination]
  /-- A check asks for nothing. -/
  silent : ∀ w c, (w, c) ∈ x.history → c.wakes x.ticket w = true →
    (noted w [c]).transport.asks = []
  /-- Who knows the path is told at once and never checks. -/
  known : x.Known x.board → x.checks = [] ∧ x.outcome.answer? x.ticket = some (x.answer 0 true)
  /-- Who does not checks after every interval, as long as the span was not over before, -/
  ticks : ∀ k w, x.checks[k]? = some w → k < x.rounds ∧ w.now = x.tick (k + 1)
  /-- and does so again only if the path was not found. -/
  again : ∀ k w, x.checks[k]? = some w → k + 1 < x.checks.length → ¬ x.Known w
  /-- It is answered at the first check that finds the path, or at the last one of all. -/
  answered : ¬ x.Known x.board → ∀ a, x.outcome.answer? x.ticket = some a ↔
    (∃ k w, k + 1 = x.checks.length ∧ x.checks[k]? = some w ∧ x.Known w ∧
      a = x.answer (k + 1) true) ∨
    x.checks.length = x.rounds ∧ (∀ w ∈ x.checks, ¬ x.Known w) ∧ a = x.answer x.rounds false
  /-- As long as it waits, its timer is set to the next check. -/
  waits : x.outcome.answer? x.ticket = none →
    x.checks.length < x.rounds ∧ (∀ w ∈ x.checks, ¬ x.Known w) ∧
      x.timer (x.checks.length + 1) ∈ x.outcome.waits ∧
      x.outcome.now ≤ x.tick (x.checks.length + 1)
  ends : x.tick x.rounds < x.outcome.now → (x.outcome.answer? x.ticket).isSome = true
  finishes : x.Finishes
  /-- It is answered before one more interval has passed after the span. -/
  soon : ∀ a, x.outcome.answer? x.ticket = some a → a.time < x.time + x.span + x.poll

theorem isSome_of_over
    (h : (∃ w ∈ x.checks, x.Known w) ∨ x.checks.length = x.rounds) :
    (x.outcome.answer? x.ticket).isSome = true := by
  by_contra hnone
  obtain ⟨hvain, hlt, -⟩ := x.waiting_of_unanswered (Option.not_isSome_iff_eq_none.mp hnone)
  rcases h with ⟨w, hw, hpath⟩ | hall
  · exact hvain.unknown hw hpath
  · exact hlt.ne hall

theorem answer_iff (hno : ¬ x.Known x.board) (a : Answered) :
    x.outcome.answer? x.ticket = some a ↔
      (∃ k w, k + 1 = x.checks.length ∧ x.checks[k]? = some w ∧ x.Known w ∧
        a = x.answer (k + 1) true) ∨
      x.checks.length = x.rounds ∧ (∀ w ∈ x.checks, ¬ x.Known w) ∧
        a = x.answer x.rounds false := by
  refine ⟨fun hans => (x.verdict_of_answer hans).cases hno, fun h => ?_⟩
  have hover : (∃ w ∈ x.checks, x.Known w) ∨ x.checks.length = x.rounds := by
    rcases h with ⟨k, w, -, hw, hpath, -⟩ | ⟨hall, -⟩
    · exact .inl ⟨w, List.mem_of_getElem? hw, hpath⟩
    · exact .inr hall
  obtain ⟨b, hb⟩ := Option.isSome_iff_exists.mp (x.isSome_of_over hover)
  -- There is an answer, and both descriptions agree on what it is.
  suffices hsame : b = a from hsame ▸ hb
  obtain ⟨k, w, hk, hw, hpath, rfl⟩ | ⟨hall, hvain, rfl⟩ := (x.verdict_of_answer hb).cases hno
  · obtain ⟨n, _, hn, -, -, rfl⟩ | ⟨-, hvain, -⟩ := h
    · rw [hk, hn]
    · exact absurd hpath (hvain w (List.mem_of_getElem? hw))
  · obtain ⟨_, v, -, hv, hpath, -⟩ | ⟨-, -, rfl⟩ := h
    · exact absurd hpath (hvain v (List.mem_of_getElem? hv))
    · rfl

end Search

/-- Whoever resolves a destination is told in time, and a path is asked for only if it is needed. -/
theorem resolve_prompt : (∀ x : Search σ, x.Prompt) ∧
    ∀ (w : Switchboard σ) (calls : List (Call σ)), Inquiring w calls := by
  refine ⟨fun x => ?_, fun w calls => ?_⟩
  · exact
    { asks := asks_noted_single x.board (.resolve x.destination x.span)
      silent := by
        intro w c _ hwakes
        rw [asks_noted_single]
        cases c with
        | expire p => rfl
        | _ => cases hwakes
      known := by
        intro hknown
        obtain ⟨a, hans, hv⟩ | ⟨-, hno, -⟩ := x.told_or_waiting
        · cases hv with
          | known _ hnil => exact ⟨hnil, hans⟩
          | found hno | missed hno => exact absurd hknown hno
        · exact absurd hknown hno
      ticks := by
        intro k w hk
        obtain ⟨hlt, hnow, -⟩ := x.underway_outcome.reached.check hk
        exact ⟨hlt, hnow⟩
      again := by
        intro k w hk
        exact (x.underway_outcome.reached.check hk).2.2
      answered := x.answer_iff
      waits := by
        intro hnone
        obtain ⟨hvain, hlt, hrings⟩ := x.waiting_of_unanswered hnone
        exact ⟨hlt, fun w hw => hvain.unknown hw, hrings.timer, hrings.now⟩
      ends := by
        intro hlate
        by_contra hnone
        obtain ⟨-, hlt, hrings⟩ := x.waiting_of_unanswered (Option.not_isSome_iff_eq_none.mp hnone)
        exact absurd (hlate.trans_le hrings.now) (x.tick_mono hlt).not_gt
      finishes := x.finishes
      soon := fun a ha => (x.verdict_of_answer ha).soon }
  · have hasks := asks_noted w calls
    exact ⟨by rw [hasks, noted_eq], fun d => by rw [hasks, count_everWanted]⟩

/-- The path becomes known when the span is over, and before the last check. -/
def late : Search ScriptedTransport :=
  let d : Destination := ⟨List.replicate 16 0x2f, rfl⟩
  { before :=
      { transport := .ofScripts [(d, { Script.blank with pathAfter := some 55 })]
        settings := { linkTimeout := 50, poll := 20, term := "xterm" }
        calls := [] }
    destination := d
    span := 50
    later :=
      [.advance 20, .expire ⟨0, 20, .resolving d 50⟩, .advance 40,
        .expire ⟨0, 40, .resolving d 50⟩, .advance 55, .advance 60,
        .expire ⟨0, 60, .resolving d 50⟩]
    interval := by decide
    punctual := by decide +kernel }

theorem resolve_prompt_late :
    late.Prompt ∧ (late.outcome.answer? late.ticket).any (· matches ⟨0, 60, .resolved true⟩) ∧
      late.rounds = 3 ∧ late.checks.map (·.now) = [20, 40, 60] ∧
      (noted late.board [.resolve late.destination late.span]).transport.asks =
        [.path late.destination] :=
  ⟨resolve_prompt.1 late, by decide +kernel⟩

end MeshShell.Switchboard
