import MeshShell.Proofs.Switchboard.Creations
import MeshShell.Transport.Scripted

/-! # Registering a session

From then on the id of the session leads to it. Whoever the id led to before is
closed, and that may be the session itself.
-/
namespace MeshShell

namespace Session

variable {σ : Type} [Transport σ]

theorem close_of_closed {s : Session} (h : s.closed = true) (t : σ) : s.close t = (s, t) := if_pos h

theorem close_eq_self_iff (s : Session) (t : σ) : (s.close t).1 = s ↔ s.closed = true := by
  constructor
  · intro h
    rw [← h]
    exact s.closed_close t
  · intro h
    rw [close_of_closed h]

end Session

namespace Switchboard

theorem bind_bind (id : String) (h : Handle) (rows : List (String × Handle)) :
    bind id h (bind id h rows) = bind id h rows := by
  induction rows with
  | nil => simp [bind]
  | cons row rest ih =>
    obtain ⟨k, g⟩ := row
    by_cases heq : id = k
    · simp [bind, heq]
    · by_cases hlt : id < k
      · simp [bind, heq, hlt]
      · simp [bind, heq, hlt, ih]

variable {σ : Type} [Transport σ] {w : Switchboard σ} {h : Handle} {s : Session}

theorem getElem?_closeSession (w : Switchboard σ) (p : Handle) (g : Nat) :
    (w.closeSession p).sessions[g]? =
      (w.sessions[g]?).map fun s => if p = g then (s.close w.transport).1 else s := by
  unfold closeSession
  cases hp : w.sessions[(p : Nat)]? with
  | none =>
    rw [updateSession_none hp]
    by_cases heq : p = g
    · subst heq
      rw [hp]
      rfl
    · simp [heq]
  | some s =>
    rw [updateSession_eq hp, put, List.getElem?_set]
    split
    · rename_i heq
      subst heq
      rw [hp]
      simp [(List.getElem?_eq_some_iff.mp hp).1]
    · simp

theorem closeSession_eq_self_iff (hs : w.sessions[(h : Nat)]? = some s) :
    w.closeSession h = w ↔ s.closed = true := by
  constructor
  · intro heq
    obtain ⟨s', hs', hclosed⟩ := closed_closeSession hs
    rw [heq, hs] at hs'
    rwa [Option.some.inj hs']
  · intro hclosed
    rw [closeSession, updateSession_eq hs, put, Session.close_of_closed hclosed]
    exact set_same hs

theorem getElem?_register (hs : w.sessions[(h : Nat)]? = some s) (g : Nat) :
    (w.register h).sessions[g]? = (w.sessions[g]?).map fun s' =>
      if w.registered? s.id = some g then (s'.close w.transport).1 else s' := by
  rcases register_cases hs with ⟨hnone, he⟩ | ⟨p, hp, he⟩
  · simp [he, hnone]
  · simp only [he, getElem?_closeSession, hp, Option.some.injEq]

/-- The second time nothing is left to do but to close the session. -/
theorem register_register (hs : w.sessions[(h : Nat)]? = some s) :
    (w.register h).register h = (w.register h).closeSession h := by
  obtain ⟨s', hs', hid⟩ : ∃ s', (w.register h).sessions[(h : Nat)]? = some s' ∧ s'.id = s.id := by
    refine ⟨_, by rw [getElem?_register hs, hs]; rfl, ?_⟩
    split
    · exact (Session.effect .close s w.transport).id
    · rfl
  have htable := table_register hs
  have hleads : (w.register h).registered? s.id = some h := by
    rw [registered?, htable]
    exact (registered_bind w s.id s.id h).trans (if_pos rfl)
  have hsame : { w.register h with table := bind s'.id h (w.register h).table } = w.register h := by
    rw [hid, htable, bind_bind, ← htable]
  rcases register_cases hs' with ⟨hnone, -⟩ | ⟨p, hp, he⟩
  · rw [hid, hleads] at hnone
    exact nomatch hnone
  · rw [hid, hleads] at hp
    rw [he, hsame, ← Option.some.inj hp]

/-- What comes of registering a session. -/
structure Registration (w : Switchboard σ) (h : Handle) (s : Session) : Prop where
  bound : leads (w.register h).table = Function.update (leads w.table) s.id (some h)
  displaced : ∀ p s', w.registered? s.id = some p → w.sessions[(p : Nat)]? = some s' →
    ∃ s'', s'.close w.transport = (s'', (w.register h).transport) ∧
      (w.register h).sessions[(p : Nat)]? = some s'' ∧ s''.closed = true
  untouched : ∀ g : Handle, w.registered? s.id ≠ some g →
    (w.register h).sessions[(g : Nat)]? = w.sessions[(g : Nat)]?
  spared : (w.register h).sessions[(h : Nat)]? = some s ↔
    s.closed = true ∨ w.registered? s.id ≠ some h
  again : (w.register h).register h = w.register h ↔
    s.closed = true ∨ w.registered? s.id = some h
  /-- Whoever is registered twice is closed. -/
  twice : ((w.register h).register h).At h (·.closed = true)

/-- A session that is registered under its id already takes its own place, and is closed for it. -/
theorem registration (w : Switchboard σ) (h : Handle) (s : Session)
    (hs : w.sessions[(h : Nat)]? = some s) : w.Registration h s := by
  have hown : (w.register h).sessions[(h : Nat)]? =
      some (if w.registered? s.id = some h then (s.close w.transport).1 else s) := by
    rw [getElem?_register hs, hs]
    rfl
  exact
    { bound := by rw [table_register hs, leads_bind]
      displaced := by
        intro p s' hp hs'
        have hthere : { w with table := bind s.id h w.table }.sessions[(p : Nat)]? = some s' := hs'
        refine ⟨(s'.close w.transport).1, ?_, ?_, s'.closed_close _⟩
        · rcases register_cases hs with ⟨hnone, -⟩ | ⟨q, hq, he⟩
          · exact nomatch hnone.symm.trans hp
          · obtain rfl := Option.some.inj (hp.symm.trans hq)
            rw [he, closeSession, updateSession_eq hthere]
            rfl
        · rw [getElem?_register hs, hs', hp]
          simp
      untouched := by
        intro g hg
        rw [getElem?_register hs]
        simp [hg]
      spared := by
        rw [hown, Option.some.injEq]
        split
        · rename_i hp
          simp [hp, s.close_eq_self_iff]
        · rename_i hp
          simp [hp]
      again := by
        rw [register_register hs, closeSession_eq_self_iff hown]
        split
        · rename_i hp
          simp [hp, s.closed_close]
        · rename_i hp
          simp [hp]
      twice := by
        rw [register_register hs]
        exact closed_closeSession hown }

/-- Two open sessions that are called alike, and the first of them is registered. -/
def namesakes : Switchboard ScriptedTransport :=
  let settings : SessionSettings := ⟨500, 10, "xterm-256color"⟩
  let made (w : Switchboard ScriptedTransport) : Switchboard ScriptedTransport :=
    (w.makeSession "s" ⟨List.replicate 16 0x51, rfl⟩ settings).2
  (made (made (.new (.ofScripts []) settings))).register 0

theorem registration_namesake : ∃ s, namesakes.sessions[1]? = some s ∧ namesakes.Registration 1 s ∧
    (namesakes.register 1).registered? "s" = some 1 ∧
    (namesakes.register 1).sessions.map (·.closed) = [true, false] := by
  have h : namesakes.sessions[1]?.isSome = true := by decide
  obtain ⟨s, hs⟩ := Option.isSome_iff_exists.mp h
  exact ⟨s, hs, registration namesakes 1 s hs, by decide, by decide⟩

/-- The first of them is closed when it is registered again. -/
theorem closed_by_itself : namesakes.sessions.map (·.closed) = [false, false] ∧
    namesakes.registered? "s" = some 0 ∧
    (namesakes.register 0).sessions.map (·.closed) = [true, false] ∧
    (namesakes.register 0).registered? "s" = some 0 ∧ namesakes.register 0 ≠ namesakes := by
  have hclosed : (namesakes.register 0).sessions.map (·.closed) = [true, false] := by decide
  have hopen : namesakes.sessions.map (·.closed) = [false, false] := by decide
  refine ⟨hopen, by decide, hclosed, by decide, fun heq => ?_⟩
  rw [heq, hopen] at hclosed
  simp at hclosed

end Switchboard

end MeshShell
