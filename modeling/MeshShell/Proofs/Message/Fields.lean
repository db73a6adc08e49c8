import MeshShell.Message.Field
import MeshShell.Proofs.Json.Readback

/-! # Fields and the values in them

Fields are found by their names, so their order does not matter, and each kind
of value is read back from what is written for it.
-/
namespace MeshShell

theorem Utf8.encode_of_decode? {bytes : Bytes} {s : String} (h : Utf8.decode? bytes = some s) :
    Utf8.encode s = bytes := by
  unfold Utf8.decode? String.fromUTF8? at h
  split at h
  · obtain rfl := Option.some.inj h
    rfl
  · cases h

namespace Json

theorem lookup_perm {fs gs : List (String × Json)} (h : fs.Perm gs) (hkeys : (fs.map (·.1)).Nodup)
    (name : String) : fs.lookup name = gs.lookup name := by
  induction h with
  | nil => rfl
  | cons f _ ih =>
    rw [List.map_cons, List.nodup_cons] at hkeys
    rw [List.lookup_cons, List.lookup_cons, ih hkeys.2]
  | swap f g fs =>
    obtain ⟨k, v⟩ := f
    obtain ⟨l, w⟩ := g
    have hne : l ≠ k := by
      rintro rfl
      simp at hkeys
    by_cases hk : name = k
    · subst hk
      simp [List.lookup_cons, beq_eq_false_iff_ne.mpr hne.symm]
    · simp [List.lookup_cons, beq_eq_false_iff_ne.mpr hk]
  | trans h _ ih ih' =>
    exact (ih hkeys).trans (ih' ((h.map Prod.fst).nodup_iff.mp hkeys))

/-- The members of an object whose keys are written in the usual form. -/
def membersOf (fs : List (String × Json)) : List (Quoted × Json) :=
  fs.map fun (k, v) => (Quoted.ofString k, v)

theorem ofFields_eq (fs : List (String × Json)) : ofFields fs = .object (membersOf fs) := rfl

theorem legible_ofFields {fs : List (String × Json)} (h : ∀ f ∈ fs, f.2.Legible) :
    (ofFields fs).Legible := by
  refine .object ?_ ?_ <;> intro m hm <;> obtain ⟨f, hf, rfl⟩ := List.mem_map.mp hm
  · exact Quoted.legible_ofChars f.1.toList
  · exact h f hf

/-- Different fields that are all asked for are found as they stand. -/
theorem fields?_membersOf {names : List String} {fs : List (String × Json)}
    (hkeys : (fs.map (·.1)).Nodup) (hnames : ∀ f ∈ fs, f.1 ∈ names) :
    fields? names (membersOf fs) = some fs := by
  induction fs with
  | nil => rfl
  | cons f fs ih =>
    obtain ⟨k, v⟩ := f
    rw [List.map_cons, List.nodup_cons] at hkeys
    have hrest := ih hkeys.2 fun g hg => hnames g (List.mem_cons_of_mem _ hg)
    have hk : names.contains k := List.contains_iff_mem.mpr (hnames (k, v) List.mem_cons_self)
    have hnew : fs.any (·.1 == k) = false := by
      rw [List.any_eq_false]
      intro g hg heq
      exact hkeys.1 (List.mem_map.mpr ⟨g, hg, beq_iff_eq.mp heq⟩)
    have hsplit : membersOf ((k, v) :: fs) = (Quoted.ofString k, v) :: membersOf fs := rfl
    rw [hsplit, fields?, Quoted.string?_ofString, hrest]
    simp [hnew, List.contains_iff_mem.mp hk]

theorem plainItems_iff {depth : Nat} {items : List Json} :
    plainItems depth items = true ↔ ∀ v ∈ items, v.plain depth = true := by
  induction items with
  | nil => simp [plainItems]
  | cons v items ih => simp [plainItems, ih]

theorem plainMembers_membersOf {depth : Nat} {fs : List (String × Json)} :
    plainMembers depth (membersOf fs) = true ↔ ∀ f ∈ fs, f.2.plain depth = true := by
  induction fs with
  | nil => simp [plainMembers, membersOf]
  | cons f fs ih =>
    have hkey : (Quoted.chars? (Quoted.ofString f.1)).isSome := by
      simp [Quoted.ofString, Quoted.chars?_ofChars]
    have hsplit : membersOf (f :: fs) = (Quoted.ofString f.1, f.2) :: membersOf fs := rfl
    simp [hsplit, plainMembers, ih, hkey]

theorem plain_ofInt {n : Int} (h : n.natAbs < 10 ^ 100) (depth : Nat) : (ofInt n).plain depth = true := by
  have hdigits : ∀ k, k < 10 ^ 100 → (Scientific.ofDigits (Decimal.digits k)).overflows = false :=
    fun k hk => by rw [Scientific.ofDigits_digits, Scientific.not_overflows_natural hk]
  have hfinite : finite (Decimal.integerDigits n) = true := by
    cases n with
    | ofNat k =>
      unfold finite Decimal.integerDigits
      split
      · rename_i ds hds
        exact absurd hds (digits_ne_minus k ds)
      · rw [hdigits k h]
        rfl
    | negSucc k =>
      exact (congrArg (!·) (hdigits (k + 1) h)).trans rfl
  cases depth <;> exact hfinite

theorem plain_text {q : Quoted} (h : q.chars?.isSome) (depth : Nat) : plain depth (.text q) = true := by
  cases depth <;> exact h

theorem plain_ofString (s : String) (depth : Nat) : (ofString s).plain depth = true :=
  plain_text (by simp [Quoted.ofString, Quoted.chars?_ofChars]) depth

theorem byte?_ofNat (b : UInt8) : byte? (ofNat b.toNat) = some b := by
  have hb := b.toNat_lt
  simp only [byte?, ofNat]
  rw [bounded?_ofInt ⟨by omega, by omega⟩]
  simp

theorem word16?_ofNat (n : UInt16) : word16? (ofNat n.toNat) = some n := by
  have hn := n.toNat_lt
  simp only [word16?, ofNat]
  rw [bounded?_ofInt ⟨by omega, by omega⟩]
  simp

theorem word32?_ofNat (n : UInt32) : word32? (ofNat n.toNat) = some n := by
  have hn := n.toNat_lt
  simp only [word32?, ofNat]
  rw [bounded?_ofInt ⟨by omega, by omega⟩]
  simp

theorem int32?_ofInt (n : Int32) : int32? (ofInt n.toInt) = some n := by
  have hlow := n.le_toInt
  have hhigh := n.toInt_lt
  rw [int32?, bounded?_ofInt ⟨by omega, by omega⟩]
  simp

theorem strings?_array (ss : List String) : strings? (.array (ss.map ofString)) = some ss :=
  mapM_map string?_ofString ss

theorem payload?_array (bytes : Bytes) :
    payload? (.array (bytes.map fun b => ofNat b.toNat)) = some bytes :=
  mapM_map byte?_ofNat bytes

theorem encode_cons (c : Char) (cs : List Char) :
    Utf8.encode (String.ofList (c :: cs)) = Quoted.charBytes c ++ Utf8.encode (String.ofList cs) := by
  have hsplit : String.ofList (c :: cs) = String.singleton c ++ String.ofList cs := by
    apply String.toList_injective
    simp
  simp [hsplit, Quoted.charBytes, Utf8.encode]

/-- A form that stands for characters stands for their bytes. -/
theorem Quoted.bytes_of_chars? {q : Quoted} {cs : List Char} (h : q.chars? = some cs) :
    q.bytes = Utf8.encode (String.ofList cs) := by
  induction q using Quoted.chars?.induct generalizing cs with
  | case1 =>
    obtain rfl := Option.some.inj h
    rfl
  | case2 c rest hc => simp [Quoted.chars?, hc] at h
  | case3 c rest hc ih =>
    rw [Quoted.chars?, if_neg hc] at h
    obtain ⟨ds, hds, rfl⟩ := Option.map_eq_some_iff.mp h
    rw [Quoted.bytes, ih hds, encode_cons]
  | case4 c rest ih =>
    rw [Quoted.chars?] at h
    obtain ⟨ds, hds, rfl⟩ := Option.map_eq_some_iff.mp h
    rw [Quoted.bytes, ih hds, encode_cons]
  | case5 n m rest hlead htrail ih =>
    rw [Quoted.chars?, if_pos hlead, if_pos htrail] at h
    obtain ⟨ds, hds, rfl⟩ := Option.map_eq_some_iff.mp h
    rw [encode_cons, ← ih hds]
    simp [Quoted.bytes, hlead, htrail]
  | case6 n m rest hlead htrail => simp [Quoted.chars?, hlead, htrail] at h
  | case7 n m rest hlead htrail => simp [Quoted.chars?, hlead, htrail] at h
  | case8 n m rest hlead htrail ih =>
    rw [Quoted.chars?, if_neg hlead, if_neg htrail] at h
    obtain ⟨ds, hds, rfl⟩ := Option.map_eq_some_iff.mp h
    rw [encode_cons, ← ih hds]
    simp [Quoted.bytes, hlead, htrail]
  | case9 n rest hno hsurrogate => simp [Quoted.chars?, hsurrogate] at h
  | case10 n rest hno hsurrogate ih =>
    simp only [Quoted.chars?, hsurrogate] at h
    obtain ⟨ds, hds, rfl⟩ := Option.map_eq_some_iff.mp h
    rw [encode_cons, ← ih hds]
    simp [Quoted.bytes, hsurrogate]

theorem Quoted.bytes_of_string? {q : Quoted} {s : String} (h : q.string? = some s) :
    q.bytes = Utf8.encode s := by
  obtain ⟨cs, hcs, rfl⟩ := Option.map_eq_some_iff.mp h
  exact Quoted.bytes_of_chars? hcs

end Json

end MeshShell
