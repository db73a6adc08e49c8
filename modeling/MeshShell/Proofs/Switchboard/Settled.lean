import MeshShell.Proofs.Switchboard.Steps

/-! # When everything is done that can be done

After a switchboard has settled nobody stands in line for something that is
there: who still waits does so at an open session with an empty queue.
-/
namespace MeshShell

theorem Session.Quiet.nothing {s : Session} (hq : s.Quiet) (hwhy : s.readers ≠ [] ∨ s.take = (none, s)) :
    s.output = [] ∧ s.closed = false := by
  rcases hwhy with hne | ht
  · exact hq hne
  · rcases s.take_cases with ⟨_, _, -, h⟩ | ⟨_, -, h⟩ | ⟨-, -, h⟩ | ⟨ho, -, hc, -⟩
    · simp [ht] at h
    · simp [ht] at h
    · simp [ht] at h
    · exact ⟨ho, hc⟩

namespace Switchboard

variable {σ : Type} {w : Switchboard σ}

theorem quiet_serveLine (line : List Ticket) (s : Session) : (s.serveLine line).2.Quiet := by
  induction line generalizing s with
  | nil =>
    intro hne
    exact absurd rfl hne
  | cons r rest ih =>
    rcases s.take_cases with ⟨_, _, -, ht⟩ | ⟨_, -, ht⟩ | ⟨-, -, ht⟩ | ⟨ho, -, hc, ht⟩
    all_goals simp only [Session.serveLine, ht]
    · exact ih _
    · exact ih _
    · exact ih _
    · exact fun _ => ⟨ho, hc⟩

theorem serveLine_none {line : List Ticket} {s : Session} (hl : s.readers = line)
    (h : (s.serveLine line).1 = []) : (s.serveLine line).2 = s := by
  cases line with
  | nil =>
    simp only [Session.serveLine]
    rw [← hl]
  | cons r rest =>
    rcases s.take_some_or_none with ⟨outcome, s', ht⟩ | ht
    · simp [Session.serveLine, ht] at h
    · simp only [Session.serveLine, ht]
      rw [← hl]

theorem sessions_replyAll (served : List (Ticket × ReadOutcome)) (w : Switchboard σ) :
    (replyAll served w).sessions = w.sessions := by
  induction served generalizing w with
  | nil => rfl
  | cons first rest ih => exact ih (w.reply first.1 (.read first.2))

theorem sessions_rearmFirst (w : Switchboard σ) (s : Session) :
    (w.rearmFirst s).sessions = w.sessions := by
  unfold rearmFirst
  cases s.readers.head? with
  | none => rfl
  | some ticket =>
    dsimp only
    cases w.waits.find? (·.ticket = ticket) <;> rfl

theorem sessions_serve {h : Handle} {s : Session} (hs : w.sessions[h]? = some s) :
    (w.serve h).sessions = w.sessions.set h s.serve.2 := by
  unfold serve
  rw [hs]
  dsimp only
  cases hserved : s.serve with
  | mk served s' =>
    cases served with
    | nil =>
      have hsame : s' = s := by
        have h := serveLine_none (s := s) rfl (congrArg Prod.fst hserved)
        exact (congrArg Prod.snd hserved).symm.trans h
      have hset := set_same hs
      rw [hsame]
      exact (congrArg Switchboard.sessions hset).symm
    | cons first rest =>
      dsimp only
      rw [sessions_rearmFirst]
      exact sessions_replyAll (first :: rest) _

theorem length_serve (w : Switchboard σ) (h : Handle) :
    (w.serve h).sessions.length = w.sessions.length := by
  cases hs : w.sessions[h]? with
  | none => simp [serve, hs]
  | some s => simp [sessions_serve hs]

theorem holds_serve {P : Session → Prop} (hP : ∀ s : Session, P s.serve.2) {g h : Handle}
    {s' : Session} (hs' : (w.serve g).sessions[h]? = some s')
    (hq : g ≠ h → ∀ s, w.sessions[h]? = some s → P s) : P s' := by
  by_cases hgh : g = h
  · subst hgh
    cases hs : w.sessions[g]? with
    | none => simp [serve, hs] at hs'
    | some s =>
      rw [sessions_serve hs, List.getElem?_set_self (List.getElem?_eq_some_iff.mp hs).1] at hs'
      exact Option.some.inj hs' ▸ hP s
  · apply hq hgh s'
    cases hs : w.sessions[g]? with
    | none => simpa [serve, hs] using hs'
    | some s => rwa [sessions_serve hs, List.getElem?_set_ne hgh] at hs'

theorem holds_serveAll {P : Session → Prop} (hP : ∀ s : Session, P s.serve.2)
    (handles : List Handle) (w : Switchboard σ) {h : Handle} {s' : Session}
    (hs' : (handles.foldl serve w).sessions[h]? = some s')
    (hq : h ∉ handles → ∀ s, w.sessions[h]? = some s → P s) : P s' := by
  induction handles generalizing w with
  | nil => exact hq (by simp) s' hs'
  | cons g rest ih =>
    apply ih (w.serve g) hs'
    intro hrest s hs
    apply holds_serve hP hs
    intro hgh
    exact hq (by simp [hrest, Ne.symm hgh])

theorem length_serveAll (handles : List Handle) (w : Switchboard σ) :
    (handles.foldl serve w).sessions.length = w.sessions.length := by
  induction handles generalizing w with
  | nil => rfl
  | cons g rest ih => exact (ih (w.serve g)).trans (length_serve w g)

theorem holds_settle [Transport σ] {P : Session → Prop} (hP : ∀ s : Session, P s.serve.2)
    (w : Switchboard σ) : ∀ s ∈ w.settle.sessions, P s := by
  intro s hs
  obtain ⟨h, hlt, hget⟩ := List.getElem_of_mem hs
  have hs? : w.settle.sessions[h]? = some s := List.getElem?_eq_some_iff.mpr ⟨hlt, hget⟩
  refine holds_serveAll hP (List.range w.round.round.sessions.length) w.round.round hs? ?_
  intro hout
  rw [settle, length_serveAll] at hlt
  exact absurd (List.mem_range.mpr hlt) hout

theorem settled_settle [Transport σ] (w : Switchboard σ) : w.settle.Settled :=
  holds_settle (fun s => quiet_serveLine s.readers s) w

theorem quiet_join {s : Session} (hq : s.Quiet) (ticket : Ticket) (patient : Bool) :
    (s.join ticket patient).2.Quiet := by
  rcases s.join_cases ticket patient with ⟨hr, _, s', ht, he⟩ | ⟨hwhy, ⟨-, he⟩ | ⟨-, he⟩⟩
  · rw [he]
    obtain ⟨queue, rfl⟩ := Session.take_frame ht
    intro hne
    exact absurd hr hne
  · rw [he]
    exact fun _ => hq.nothing hwhy
  · rwa [he]

end Switchboard

end MeshShell
