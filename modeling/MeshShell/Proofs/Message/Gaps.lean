import MeshShell.Proofs.Message.Fields

/-! # Values with a gap

What is read of a value that has others around it, as a function of this value.
-/
namespace MeshShell.Json

theorem bounded?_range {v : Json} {low high n : Int} (h : v.bounded? low high = some n) :
    low ≤ n ∧ n ≤ high := by
  obtain ⟨k, -, hk⟩ := Option.bind_eq_some_iff.mp h
  split at hk
  · rename_i hrange
    exact Option.some.inj hk ▸ hrange
  · cases hk

theorem bounded?_ofInt_eq (low high n : Int) :
    bounded? low high (ofInt n) = if low ≤ n ∧ n ≤ high then some n else none := by
  simp [bounded?, integer?_ofInt]

theorem length_of_mapM {α β : Type} {read : α → Option β} {xs : List α} {ys : List β}
    (h : xs.mapM read = some ys) : ys.length = xs.length := by
  induction xs generalizing ys with
  | nil =>
    cases h
    rfl
  | cons x xs ih =>
    rw [List.mapM_cons] at h
    obtain ⟨y, -, h⟩ := Option.bind_eq_some_iff.mp h
    obtain ⟨zs, hzs, h⟩ := Option.bind_eq_some_iff.mp h
    cases h
    simp [ih hzs]

theorem mapM_gap {α β : Type} {read : α → Option β} {before after : List α} {x : α} {ys : List β} :
    (before ++ x :: after).mapM read = some ys ↔ ∃ bs b cs, before.mapM read = some bs ∧
      read x = some b ∧ after.mapM read = some cs ∧ ys = bs ++ b :: cs := by
  simp only [List.mapM_append, List.mapM_cons, Option.bind_eq_bind, Option.bind_eq_some_iff,
    Option.pure_def, Option.some.injEq]
  constructor
  · rintro ⟨bs, hbs, _, ⟨b, hb, cs, hcs, rfl⟩, rfl⟩
    exact ⟨bs, b, cs, hbs, hb, hcs, rfl⟩
  · rintro ⟨bs, b, cs, hbs, hb, hcs, rfl⟩
    exact ⟨bs, hbs, _, ⟨b, hb, cs, hcs, rfl⟩, rfl⟩

theorem fields?_cons {names : List String} {members : List (Quoted × Json)} {key : Quoted} {name : String}
    {rest : List (String × Json)} (hkey : key.string? = some name) (hrest : fields? names members = some rest)
    (v : Json) : fields? names ((key, v) :: members) =
      if names.contains name then if rest.any (·.1 == name) then none else some ((name, v) :: rest)
      else if v.skippable then some rest else none := by
  rw [fields?, hkey, hrest]
  rfl

/-- What is read of an object has a gap where the object has one. -/
theorem fields?_gap {names : List String} {before after : List (Quoted × Json)} {key : Quoted}
    {name : String} (hkey : key.string? = some name) (hname : name ∈ names) {held : Json}
    {all : List (String × Json)} (h : fields? names (before ++ (key, held) :: after) = some all) :
    ∃ fs gs, fs.lookup name = none ∧
      ∀ v, fields? names (before ++ (key, v) :: after) = some (fs ++ (name, v) :: gs) := by
  induction before generalizing all with
  | nil =>
    obtain ⟨_, hkey', h⟩ := Option.bind_eq_some_iff.mp h
    obtain rfl := Option.some.inj (hkey.symm.trans hkey')
    obtain ⟨gs, hgs, h⟩ := Option.bind_eq_some_iff.mp h
    rw [if_pos (List.contains_iff_mem.mpr hname)] at h
    split at h
    · cases h
    · rename_i hnew
      refine ⟨[], gs, rfl, fun v => (fields?_cons hkey hgs v).trans ?_⟩
      rw [if_pos (List.contains_iff_mem.mpr hname), if_neg hnew, List.nil_append]
  | cons member before ih =>
    obtain ⟨k, w⟩ := member
    obtain ⟨name', hkey', h⟩ := Option.bind_eq_some_iff.mp h
    obtain ⟨rest, hrest, h⟩ := Option.bind_eq_some_iff.mp h
    obtain ⟨fs, gs, hfs, hgap⟩ := ih hrest
    obtain rfl := Option.some.inj ((hgap held).symm.trans hrest)
    have hstep := fun v => fields?_cons hkey' (hgap v) w
    split at h
    · rename_i hasked
      split at h
      · cases h
      · rename_i hnew
        have hne : (name == name') = false := by simpa using fun heq : name = name' => hnew (by simp [heq])
        have hsame : ∀ v : Json, ¬ (fs ++ (name, v) :: gs).any (·.1 == name') = true := by
          intro v
          rwa [List.any_append, List.any_cons] at hnew ⊢
        refine ⟨(name', w) :: fs, gs, by rw [List.lookup_cons, hne, hfs], fun v => (hstep v).trans ?_⟩
        rw [if_pos hasked, if_neg (hsame v), List.cons_append]
    · rename_i hasked
      split at h
      · rename_i hskip
        exact ⟨fs, gs, hfs, fun v => (hstep v).trans (by rw [if_neg hasked, if_pos hskip])⟩
      · cases h

theorem plainMembers_iff {depth : Nat} {members : List (Quoted × Json)} :
    plainMembers depth members = true ↔
      ∀ p ∈ members, (Quoted.chars? p.1).isSome = true ∧ p.2.plain depth = true := by
  induction members with
  | nil => simp [plainMembers]
  | cons p members ih => simp [plainMembers, ih]

end MeshShell.Json
