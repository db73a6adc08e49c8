import MeshShell.Proofs.Switchboard.Creations

/-! # Taking sessions out of the table

A session is handed out, or closed, when its id is taken out. When all sessions
are closed at once, those that are not in the table are left alone.
-/
namespace MeshShell.Switchboard

variable {σ : Type} [Transport σ] {w w' : Switchboard σ}
variable {ks : List Creation} {handed : List Handle} {bound : String → Option Handle}

theorem along_same (hs : w'.sessions = w.sessions) : Along w w' :=
  fun _ _ hsess => (stirs_same hs).goes hsess

theorem Registry.remove (hx : Registry ks handed bound w) (id : String) :
    Registry ks (handed ++ (w.remove id).1.toList) (Function.update bound id none)
      (w.remove id).2 := by
  have hleads := leads_filter id w.table
  rw [hx.table] at hleads
  refine hx.unbind rfl rfl (along_same rfl) (Nat.le_refl _) hleads (hx.sorted.filter _) ?_
    (List.subset_append_left _ _) ?_
  · intro key h hb
    by_cases hk : key = id
    · simp [hk] at hb
    · rwa [Function.update_of_ne hk] at hb
  · intro key h hb
    by_cases hk : key = id
    · have hfound : (w.remove id).1 = some h := by
        rw [← hb, hk, ← hx.table]
        rfl
      exact .inr (.inl (by simp [hfound]))
    · exact .inl (by rwa [Function.update_of_ne hk])

theorem closeId_cases (w : Switchboard σ) (id : String) :
    (w.registered? id = none ∧ w.closeId id = (false, (w.remove id).2)) ∨
    ∃ h, w.registered? id = some h ∧ w.closeId id = (true, (w.remove id).2.closeSession h) := by
  unfold closeId Switchboard.remove
  cases w.registered? id with
  | none => exact .inl ⟨rfl, rfl⟩
  | some h => exact .inr ⟨h, rfl, rfl⟩

theorem closeSession_frame (w : Switchboard σ) (h : Handle) :
    ∃ sessions t, w.closeSession h = { w with sessions, transport := t } :=
  updateSession_frame w h Session.close

omit [Transport σ] in
theorem Registry.exists_session (hx : Registry ks handed bound w) {id : String} {h : Handle}
    (hb : bound id = some h) : ∃ s, w.sessions[(h : Nat)]? = some s ∧ s.id = id ∧ s.Tidy := by
  obtain ⟨k, hk, rfl, rfl, hm⟩ := hx.rows id h hb
  obtain ⟨s, hs, hid⟩ := hx.made k hk
  obtain ⟨k', -, -, hok⟩ := hx.told _ hm
  obtain ⟨-, s', hs', htidy⟩ := hok k.session rfl
  obtain rfl : s = s' := Option.some.inj (hs.symm.trans hs')
  exact ⟨s, hs, hid, htidy⟩

theorem closed_closeId (hx : Registry ks handed bound w) {id : String} {h : Handle}
    (hb : bound id = some h) : (w.closeId id).2.At h (·.closed = true) := by
  obtain ⟨s, hs, -⟩ := hx.exists_session hb
  rcases closeId_cases w id with ⟨hnone, -⟩ | ⟨h', hsome, he⟩
  · have hfound : w.registered? id = some h := (congrFun hx.table id).trans hb
    simp [hnone] at hfound
  · obtain rfl : h' = h := by
      have hfound : w.registered? id = some h := (congrFun hx.table id).trans hb
      exact Option.some.inj (hsome.symm.trans hfound)
    rw [he]
    exact closed_closeSession (w := (w.remove id).2) hs

theorem closeId_frame (w : Switchboard σ) (id : String) :
    ∃ sessions t, (w.closeId id).2 = { (w.remove id).2 with sessions, transport := t } := by
  rcases closeId_cases w id with ⟨-, he⟩ | ⟨h, -, he⟩ <;> rw [he]
  · exact ⟨_, _, rfl⟩
  · exact closeSession_frame _ h

theorem Registry.closeId (hx : Registry ks handed bound w) (id : String) :
    Registry ks handed (Function.update bound id none) (w.closeId id).2 := by
  have hleads := leads_filter id w.table
  rw [hx.table] at hleads
  obtain ⟨sessions, t, hf⟩ := closeId_frame w id
  refine hx.unbind (by rw [hf]; rfl) (by rw [hf]; rfl) (steps_closeId w id).along
    (by rw [hf]; exact Nat.le_refl _) (by rw [hf]; exact hleads)
    (by rw [hf]; exact hx.sorted.filter _) ?_ (List.Subset.refl _) ?_
  · intro key h hb
    by_cases hk : key = id
    · simp [hk] at hb
    · rwa [Function.update_of_ne hk] at hb
  · intro key h hb
    by_cases hk : key = id
    · exact .inr (.inr (closed_closeId hx (hk ▸ hb)))
    · exact .inl (by rwa [Function.update_of_ne hk])

theorem closeEach_frame (handles : List Handle) (w : Switchboard σ) :
    ∃ sessions t, handles.foldl closeSession w = { w with sessions, transport := t } := by
  induction handles generalizing w with
  | nil => exact ⟨_, _, rfl⟩
  | cons g rest ih =>
    obtain ⟨_, _, hg⟩ := closeSession_frame w g
    obtain ⟨sessions, t, hrest⟩ := ih (w.closeSession g)
    refine ⟨sessions, t, hrest.trans ?_⟩
    rw [hg]

theorem closed_closeEach (handles : List Handle) (w : Switchboard σ) {h : Handle}
    (hm : h ∈ handles) {s : Session} (hs : w.sessions[(h : Nat)]? = some s) :
    (handles.foldl closeSession w).At h (·.closed = true) := by
  induction handles generalizing w s with
  | nil => simp at hm
  | cons g rest ih =>
    by_cases hg : g = h
    · subst hg
      have hrest : Along (w.closeSession g) (rest.foldl closeSession (w.closeSession g)) :=
        Steps.along (steps_foldl steps_closeSession _ _)
      exact (closed_closeSession hs).along lasting_closed hrest
    · obtain ⟨s', -, hs', -⟩ := (steps_closeSession w g).along h s hs
      exact ih (w.closeSession g) ((List.mem_cons.mp hm).resolve_left (Ne.symm hg)) hs'

theorem closed_closeAll (hx : Registry ks handed bound w) {id : String} {h : Handle}
    (hb : bound id = some h) : w.closeAll.2.At h (·.closed = true) := by
  obtain ⟨s, hs, -⟩ := hx.exists_session hb
  have hrow : (id, h) ∈ w.table := hx.sorted.mem_iff.mpr ((congrFun hx.table id).trans hb)
  exact closed_closeEach _ { w with table := [] } (List.mem_map_of_mem hrow) hs

theorem closeAll_frame (w : Switchboard σ) :
    ∃ sessions t, w.closeAll.2 = { w with table := [], sessions, transport := t } :=
  closeEach_frame (w.table.map Prod.snd) { w with table := [] }

theorem Registry.closeAll (hx : Registry ks handed bound w) :
    Registry ks handed (fun _ => none) w.closeAll.2 := by
  obtain ⟨sessions, t, hf⟩ := closeAll_frame w
  refine hx.unbind (by rw [hf]; rfl) (by rw [hf]; rfl) (steps_closeAll w).along
    (by rw [hf]) (by rw [hf]; rfl) (by rw [hf]; exact List.Pairwise.nil) (by simp)
    (List.Subset.refl _) ?_
  exact fun id h hb => .inr (.inr (closed_closeAll hx hb))

/-- Sessions that are not in the table are not touched when it is emptied. -/
theorem drifts_closeAll {h : Handle} {s : Session} (hout : h ∉ w.table.map (·.2))
    (hs : w.sessions[(h : Nat)]? = some s) : Drifts w w.closeAll.2 h s := by
  suffices hall : ∀ (handles : List Handle) (w : Switchboard σ), h ∉ handles →
      w.sessions[(h : Nat)]? = some s →
        (handles.foldl closeSession w).sessions[(h : Nat)]? = some s from
    drifts_same (hall _ { w with table := [] } hout hs)
  intro handles
  induction handles with
  | nil => exact fun w _ hs => hs
  | cons g rest ih =>
    intro w hnot hs
    refine ih (w.closeSession g) (fun hm => hnot (List.mem_cons_of_mem g hm)) ?_
    have hg : g ≠ h := fun hgh => hnot (hgh ▸ List.mem_cons_self)
    cases hsg : w.sessions[g]? with
    | none => rwa [closeSession, updateSession_none hsg]
    | some s₀ =>
      rw [closeSession, updateSession_eq hsg]
      simpa [put, hg] using hs

end MeshShell.Switchboard
