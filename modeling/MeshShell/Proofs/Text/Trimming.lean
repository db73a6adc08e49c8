import MeshShell.Text.Blank
import Mathlib.Data.List.DropRight

/-! # Trimming

Trimming takes the white space around a text away and nothing else. What is left
is the only part of the text that begins and ends with other characters and has
nothing but white space around it.
-/
namespace MeshShell.Text

/-- White space and nothing else. -/
def Blank (cs : List Char) : Prop := ∀ c ∈ cs, isBlank c = true

instance (cs : List Char) : Decidable (Blank cs) :=
  List.decidableBAll (fun c => isBlank c = true) cs

theorem dropRightWhile_append {p : Char → Bool} {ds : List Char} (h : ∀ c ∈ ds, p c = true)
    (cs : List Char) : dropRightWhile p (cs ++ ds) = dropRightWhile p cs := by
  have hback : ∀ c ∈ ds.reverse, p c = true := fun c hc => h c (List.mem_reverse.mp hc)
  rw [dropRightWhile, List.reverse_append, List.dropWhile_append_of_pos hback]
  rfl

/-- When nothing is dropped at the ends of a text. -/
theorem strip_eq_self_iff {p q : Char → Bool} {cs : List Char} :
    dropRightWhile q (cs.dropWhile p) = cs ↔
      (∀ c, cs.head? = some c → p c = false) ∧ ∀ c, cs.getLast? = some c → q c = false := by
  have hleft : cs.dropWhile p = cs ↔ ∀ c, cs.head? = some c → p c = false := by
    cases cs with
    | nil => simp
    | cons d ds => simp [List.dropWhile_eq_self_iff]
  have hright : dropRightWhile q cs = cs ↔ ∀ c, cs.getLast? = some c → q c = false := by
    refine List.rdropWhile_eq_self_iff.trans ?_
    rcases List.eq_nil_or_concat cs with rfl | ⟨ds, d, rfl⟩ <;> simp
  rw [← hleft, ← hright]
  constructor
  · intro h
    have hprefix : dropRightWhile q (cs.dropWhile p) <+: cs.dropWhile p := List.rdropWhile_prefix q _
    have hlength : cs.length ≤ (cs.dropWhile p).length := by
      simpa only [h] using hprefix.length_le
    have hsame : cs.dropWhile p = cs := (List.dropWhile_suffix p).eq_of_length_le hlength
    exact ⟨hsame, by rwa [hsame] at h⟩
  · rintro ⟨hl, hr⟩
    rw [hl, hr]

theorem trim_of_not_blank {cs : List Char} (h : ∀ c ∈ cs, isBlank c = false) : trim cs = cs :=
  strip_eq_self_iff.mpr ⟨fun c hc => h c (List.mem_of_head? hc),
    fun c hc => h c (List.mem_of_getLast? hc)⟩

theorem trim_between {c d : Char} (hc : isBlank c = false) (hd : isBlank d = false)
    (cs : List Char) : trim (c :: cs ++ [d]) = c :: cs ++ [d] := by
  have hright : dropRightWhile isBlank (c :: cs ++ [d]) = c :: cs ++ [d] :=
    List.rdropWhile_concat_neg isBlank (c :: cs) d (by simp [hd])
  rw [trim, List.cons_append, List.dropWhile_cons_of_neg (by simp [hc])]
  exact hright

theorem trim_trim (cs : List Char) : trim (trim cs) = trim cs := by
  have hleft : (trim cs).dropWhile isBlank = trim cs := by
    have hlead : trim cs <+: cs.dropWhile isBlank := List.rdropWhile_prefix isBlank _
    refine List.dropWhile_eq_self_iff.mpr fun hpos hblank => ?_
    have hidem := List.dropWhile_idempotent isBlank cs
    have hfirst := List.dropWhile_eq_self_iff.mp hidem (hpos.trans_le hlead.length_le)
    rw [hlead.getElem hpos] at hblank
    exact hfirst hblank
  have hright : dropRightWhile isBlank (trim cs) = trim cs := List.rdropWhile_idempotent isBlank _
  rw [trim, hleft, hright]

theorem trim_padded {before after : List Char} (hb : Blank before) (ha : Blank after)
    (cs : List Char) : trim (before ++ cs ++ after) = trim cs := by
  unfold trim
  rw [List.append_assoc, List.dropWhile_append_of_pos hb, List.dropWhile_append]
  split
  · rename_i hnil
    have hafter : after.dropWhile isBlank = [] := List.dropWhile_eq_nil_iff.mpr ha
    rw [hafter, List.isEmpty_iff.mp hnil]
  · exact dropRightWhile_append ha _

theorem exists_trim (cs : List Char) :
    ∃ before after, Blank before ∧ Blank after ∧ before ++ trim cs ++ after = cs := by
  refine ⟨cs.takeWhile isBlank, (cs.dropWhile isBlank).rtakeWhile isBlank,
    fun c => List.mem_takeWhile_imp, fun c => List.mem_rtakeWhile_imp, ?_⟩
  have hright : trim cs ++ (cs.dropWhile isBlank).rtakeWhile isBlank = cs.dropWhile isBlank :=
    List.rdropWhile_append_rtakeWhile ..
  rw [List.append_assoc, hright, List.takeWhile_append_dropWhile]

theorem mem_trim {c : Char} (hc : isBlank c = false) {cs : List Char} : c ∈ trim cs ↔ c ∈ cs := by
  obtain ⟨before, after, hb, ha, hcs⟩ := exists_trim cs
  have hbefore : c ∉ before := fun hm => by simp [hb c hm] at hc
  have hafter : c ∉ after := fun hm => by simp [ha c hm] at hc
  conv_rhs => rw [← hcs]
  simp [hbefore, hafter]

/-- A part of a text which is all of it but the white space around it. -/
structure Stripped (cs part : List Char) : Prop where
  around : ∃ before after, Blank before ∧ Blank after ∧ before ++ part ++ after = cs
  first : ∀ c, part.head? = some c → isBlank c = false
  last : ∀ c, part.getLast? = some c → isBlank c = false

theorem stripped_iff {cs part : List Char} : Stripped cs part ↔ part = trim cs := by
  constructor
  · rintro ⟨⟨before, after, hb, ha, rfl⟩, hfirst, hlast⟩
    rw [trim_padded hb ha]
    exact (strip_eq_self_iff.mpr ⟨hfirst, hlast⟩).symm
  · rintro rfl
    have hends := strip_eq_self_iff.mp (trim_trim cs)
    exact ⟨exists_trim cs, hends.1, hends.2⟩

end MeshShell.Text
