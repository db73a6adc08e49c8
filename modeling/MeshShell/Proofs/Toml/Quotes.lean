import MeshShell.Proofs.Text.Written
import MeshShell.Toml.Printer

/-! # Quoted texts are read back

Whatever a text holds, the style that is chosen for it can hold it, and the
reader of that style gives the same text again. What follows the closing quotes
must not be a quote.
-/
namespace MeshShell.Toml

open Printer Quoted

theorem escape_of_letter?_none {c : Char} (h : letter? c = none) :
    escape c = if needsEscape c then '\\' :: 'u' :: (Hex.digits 4 c.toNat).map Char.toUpper else [c] := by
  rw [escape, h]

theorem escaped?_letter {c l : Char} (h : letter? c = some l) :
    escaped? l = some c ∧ unitWidth? l = none ∧ isGap l = false ∧ l ≠ '\n' ∧ l ≠ '\x0d' := by
  unfold letter? at h
  split at h <;> cases h <;> decide

theorem plain_of_bare {c : Char} (hl : letter? c = none) (hc : needsEscape c = false) :
    isPlain c = true ∧ c ≠ '"' ∧ c ≠ '\\' ∧ c ≠ '\n' ∧ c ≠ '\x0d' := by
  have hne : ∀ d : Char, letter? d ≠ none → c ≠ d := fun d hd heq => hd (heq ▸ hl)
  have hnewline := hne '\n' (by decide)
  have htab := hne '\t' (by decide)
  refine ⟨?_, hne '"' (by decide), hne '\\' (by decide), hnewline, hne '\x0d' (by decide)⟩
  simp only [needsEscape, Bool.or_eq_false_iff, Bool.and_eq_false_iff, decide_eq_false_iff_not,
    ne_eq, hnewline, htab, not_false_eq_true, not_true_eq_false, or_false] at hc
  simp [isPlain]
  omega

theorem value?_upper (n : Nat) : Hex.value? (Hex.digit n).toUpper = some (n % 16) := by
  have key : ∀ m : Fin 16, Hex.value? (Hex.digit m.val).toUpper = some m.val := by decide
  have h := key ⟨n % 16, Nat.mod_lt n (by decide)⟩
  simpa [Hex.digit] using h

theorem scalar?_toNat (c : Char) : scalar? c.toNat = some c := by
  have hvalid : c.toNat.isValidChar := c.valid
  rw [scalar?, if_pos hvalid, Char.ofNat_toNat]

theorem toNat_of_needsEscape {c : Char} (h : needsEscape c = true) : c.toNat < 0x10000 := by
  simp only [needsEscape, Bool.or_eq_true, Bool.and_eq_true, decide_eq_true_eq] at h
  omega

theorem before_before (cs ds : List Char) (r : Read) : before cs (before ds r) = before (cs ++ ds) r := by
  cases r <;> simp [before]

theorem basic_escape (c : Char) (rest : List Char) :
    basic .plain (escape c ++ rest) = before [c] (basic .plain rest) := by
  cases hl : letter? c with
  | some l =>
    obtain ⟨hread, hunit, -⟩ := escaped?_letter hl
    simp [escape, hl, basic, hread, hunit]
  | none =>
    rw [escape_of_letter?_none hl]
    split
    · rename_i hc
      simp [Hex.digits_four, basic, unitWidth?, value?_upper, Hex.value_four (toNat_of_needsEscape hc),
        scalar?_toNat]
    · rename_i hc
      obtain ⟨hplain, hquote, hslash, -⟩ := plain_of_bare hl (by simpa using hc)
      simp [basic, hplain, hquote, hslash]

theorem basic_quoted (cs rest : List Char) :
    basic .plain (cs.flatMap escape ++ '"' :: rest) = some (cs, rest) := by
  induction cs with
  | nil => simp [basic]
  | cons c cs ih =>
    rw [List.flatMap_cons, List.append_assoc, basic_escape, ih]
    rfl

theorem escape_ne_quote (c : Char) (tail rest : List Char) : escape c ++ tail ≠ '"' :: rest := by
  cases hl : letter? c with
  | some l => simp [escape, hl]
  | none =>
    rw [escape_of_letter?_none hl]
    split
    · simp
    · rename_i hc
      have hbare := plain_of_bare hl (by simpa using hc)
      simp [hbare.2.1]

theorem literal_quoted {cs : List Char} (h : ∀ c ∈ cs, isPlain c = true ∧ c ≠ '\'') (rest : List Char) :
    literal (cs ++ '\'' :: rest) = some (cs, rest) := by
  induction cs with
  | nil => simp [literal]
  | cons c cs ih =>
    obtain ⟨hplain, hquote⟩ := h c List.mem_cons_self
    have hrest := ih fun d hd => h d (List.mem_cons_of_mem c hd)
    simp [literal, hplain, hquote, hrest, before]

theorem longBasic_close {quotes : Nat} (hq : quotes ≤ 2) {rest : List Char}
    (hrest : rest.head? ≠ some '"') :
    longBasic (.plain quotes) ('"' :: '"' :: '"' :: rest) = some (List.replicate quotes '"', rest) := by
  have hopen : ∀ n cs, n ≤ 4 → longBasic (.plain n) ('"' :: cs) = longBasic (.plain (n + 1)) cs := by
    intro n cs hn
    rw [longBasic, if_neg (by simp; omega), if_pos rfl]
  rw [hopen quotes _ (by omega), hopen (quotes + 1) _ (by omega), hopen (quotes + 2) _ (by omega)]
  cases rest with
  | nil => simp [longBasic]
  | cons c rest =>
    have hc : c ≠ '"' := by simpa using hrest
    simp [longBasic, hc]

/-- Before anything that is no quote the quotes that came before belong to the text. -/
theorem longBasic_escape {quotes : Nat} (hq : quotes ≤ 2) (c : Char) (rest : List Char) :
    longBasic (.plain quotes) (escape c ++ rest) =
      before (List.replicate quotes '"' ++ [c]) (longBasic (.plain 0) rest) := by
  have hopen : ¬ (5 ≤ quotes ∨ 3 ≤ quotes ∧ c ≠ '"') := by omega
  cases hl : letter? c with
  | some l =>
    obtain ⟨hread, hunit, hgap, hnewline, hreturn⟩ := escaped?_letter hl
    have hnot : ¬ (5 ≤ quotes) ∧ ¬ (3 ≤ quotes) := by omega
    simp [escape, hl, longBasic, hread, hunit, hgap, hnewline, hreturn, hnot, before_before]
  | none =>
    have hnot : ¬ (5 ≤ quotes) ∧ ¬ (3 ≤ quotes) := by omega
    rw [escape_of_letter?_none hl]
    split
    · rename_i hc
      simp [Hex.digits_four, longBasic, unitWidth?, value?_upper, isGap,
        Hex.value_four (toNat_of_needsEscape hc), scalar?_toNat, hnot, before_before]
    · rename_i hc
      obtain ⟨hplain, hquote, hslash, hnewline, hreturn⟩ := plain_of_bare hl (by simpa using hc)
      simp [longBasic, hplain, hquote, hslash, hnewline, hreturn, hnot, before_before]

theorem longBasic_quoted {quotes : Nat} (hq : quotes ≤ 2) (cs : List Char) {rest : List Char}
    (hrest : rest.head? ≠ some '"') :
    longBasic (.plain quotes) (longEscape quotes cs ++ '"' :: '"' :: '"' :: rest) =
      some (List.replicate quotes '"' ++ cs, rest) := by
  induction cs generalizing quotes with
  | nil => simpa [longEscape] using longBasic_close hq hrest
  | cons c cs ih =>
    have hnot : ¬ (5 ≤ quotes) ∧ ¬ (3 ≤ quotes) := by omega
    by_cases hc : c = '"'
    · subst hc
      by_cases hq2 : quotes = 2
      · -- The third quote in a row is escaped.
        have hescape := longBasic_escape hq '"' (longEscape 0 cs ++ '"' :: '"' :: '"' :: rest)
        rw [ih (Nat.zero_le 2)] at hescape
        simpa [longEscape, hq2, escape, letter?, before] using hescape
      · have hmore := @ih (quotes + 1) (by omega)
        simp only [longEscape, if_true, if_neg hq2, List.cons_append]
        rw [longBasic, if_neg (by simp; omega), if_pos rfl, hmore]
        simp [List.replicate_succ']
    · by_cases hn : c = '\n'
      · subst hn
        simp [longEscape, longBasic, hnot, ih (Nat.zero_le 2), before]
      · simp only [longEscape, if_neg hc, if_neg hn, List.append_assoc]
        rw [longBasic_escape hq, ih (Nat.zero_le 2)]
        simp [before]

theorem max_le_longestRun (q : Char) (cs : List Char) (now most : Nat) :
    max now most ≤ longestRun q now most cs := by
  induction cs generalizing now most with
  | nil => exact Nat.le_refl _
  | cons c cs ih =>
    unfold longestRun
    split
    · have h := ih (now + 1) most
      omega
    · have h := ih 0 (max now most)
      omega

theorem longLiteral_open {quotes : Nat} (hq : quotes ≤ 4) (cs : List Char) :
    longLiteral quotes ('\'' :: cs) = longLiteral (quotes + 1) cs := by
  have hnot : ¬ (5 ≤ quotes) := by omega
  cases cs <;> simp [longLiteral, hnot]

theorem longLiteral_close {quotes : Nat} (hq : quotes ≤ 2) {rest : List Char}
    (hrest : rest.head? ≠ some '\'') :
    longLiteral quotes ('\'' :: '\'' :: '\'' :: rest) = some (List.replicate quotes '\'', rest) := by
  rw [longLiteral_open (by omega), longLiteral_open (by omega), longLiteral_open (by omega)]
  match rest with
  | [] => simp [longLiteral]
  | [c] =>
    have hc : c ≠ '\'' := by simpa using hrest
    simp [longLiteral, hc]
  | c :: d :: rest =>
    have hc : c ≠ '\'' := by simpa using hrest
    simp [longLiteral, hc]

/-- A character that triple single quotes can hold. -/
def InLiteral (c : Char) : Prop := (isPlain c || c = '\n') = true

theorem InLiteral.ne_return {c : Char} (h : InLiteral c) : c ≠ '\x0d' := by
  rintro rfl
  exact absurd (show (isPlain '\x0d' || '\x0d' = '\n') = true from h) (by decide)

theorem longLiteral_plain {quotes : Nat} (hq : quotes ≤ 2) {c : Char} (hc : InLiteral c)
    (hquote : c ≠ '\'') {rest : List Char} (hrest : rest ≠ []) :
    longLiteral quotes (c :: rest) = before (List.replicate quotes '\'' ++ [c]) (longLiteral 0 rest) := by
  have hnot : ¬ (5 ≤ quotes) ∧ ¬ (3 ≤ quotes) := by omega
  have hreturn := hc.ne_return
  obtain ⟨d, rest, rfl⟩ := List.exists_cons_of_ne_nil hrest
  have hread : (isPlain c || c = '\n') = true := hc
  rw [longLiteral, if_neg (by omega), if_neg hquote, if_neg (by simp [hreturn]), if_pos hread]

/-- No more than two quotes stand in a row, counting those before the text. -/
theorem longLiteral_quoted {quotes most : Nat} {cs : List Char}
    (hrun : longestRun '\'' quotes most cs ≤ 2) (hcs : ∀ c ∈ cs, InLiteral c) {rest : List Char}
    (hrest : rest.head? ≠ some '\'') :
    longLiteral quotes (cs ++ '\'' :: '\'' :: '\'' :: rest) =
      some (List.replicate quotes '\'' ++ cs, rest) := by
  have hq : quotes ≤ 2 := by
    have h := max_le_longestRun '\'' cs quotes most
    omega
  induction cs generalizing quotes most with
  | nil => simpa using longLiteral_close hq hrest
  | cons c cs ih =>
    have htail : ∀ d ∈ cs, InLiteral d := fun d hd => hcs d (List.mem_cons_of_mem c hd)
    unfold longestRun at hrun
    split at hrun
    · rename_i hc
      subst hc
      have hmore := max_le_longestRun '\'' cs (quotes + 1) most
      rw [List.cons_append, longLiteral_open (by omega), ih hrun htail (by omega)]
      simp [List.replicate_succ']
    · rename_i hc
      rw [List.cons_append, longLiteral_plain hq (hcs c List.mem_cons_self) hc (by simp),
        ih hrun htail (Nat.zero_le 2)]
      simp [before]

/-- What stands behind a quoted text does not begin with a quote. -/
def Clear (rest : List Char) : Prop := rest.head? ≠ some '"' ∧ rest.head? ≠ some '\''

theorem inLiteral_of_not_control {c : Char} (h : needsEscape c = false) : InLiteral c := by
  by_cases hn : c = '\n'
  · simp [InLiteral, hn]
  by_cases ht : c = '\t'
  · simp [InLiteral, isPlain, ht]
  simp only [needsEscape, ht, hn, ne_eq, not_false_eq_true, decide_true, Bool.and_true,
    Bool.or_eq_false_iff, decide_eq_false_iff_not] at h
  simp [InLiteral, isPlain, ht, hn]
  omega

/-- What the style of single quotes asks for. -/
theorem literal_of_styleOf {cs : List Char} (h : styleOf cs = .literal) :
    ∀ c ∈ cs, isPlain c = true ∧ c ≠ '\'' := by
  have hasked : cs.any needsEscape = false ∧ '\'' ∉ cs ∧ '\n' ∉ cs := by
    unfold styleOf at h
    dsimp only at h
    split at h
    · cases h
    split at h
    · rename_i hstyle
      simpa [and_assoc] using hstyle
    split at h
    · cases h
    split at h
    · cases h
    · split at h <;> cases h
  obtain ⟨hcontrol, hquote, hnewline⟩ := hasked
  intro c hc
  have hbare : needsEscape c = false := by simpa using List.any_eq_false.mp hcontrol c hc
  have hne : c ≠ '\n' := fun heq => hnewline (heq ▸ hc)
  have hin := inLiteral_of_not_control hbare
  exact ⟨by simpa [InLiteral, hne] using hin, fun heq => hquote (heq ▸ hc)⟩

theorem longLiteral_of_styleOf {cs : List Char} (h : styleOf cs = .longLiteral) :
    (∀ c ∈ cs, InLiteral c) ∧ runOf '\'' cs ≤ 2 := by
  have hasked : cs.any needsEscape = false ∧ runOf '\'' cs ≤ 2 := by
    unfold styleOf at h
    dsimp only at h
    split at h
    · cases h
    split at h
    · cases h
    split at h
    · cases h
    split at h
    · rename_i hstyle
      simpa using hstyle
    · split at h <;> cases h
  refine ⟨fun c hc => inLiteral_of_not_control ?_, hasked.2⟩
  simpa using List.any_eq_false.mp hasked.1 c hc

/-- The line end behind the opening quotes is there just if it is needed. -/
theorem dropFirstLine_opening {cs body : List Char}
    (h : '\n' ∉ cs → body.head? ≠ some '\n' ∧ body.head? ≠ some '\x0d') :
    dropFirstLine (opening cs ++ body) = body := by
  unfold opening
  split
  · rfl
  · rename_i hno
    obtain ⟨hnewline, hreturn⟩ := h (by simpa using hno)
    unfold dropFirstLine
    split
    · rename_i rest heq
      rw [List.nil_append] at heq
      simp [heq] at hnewline
    · rename_i rest heq
      rw [List.nil_append] at heq
      simp [heq] at hreturn
    · rfl

theorem head?_longEscape {cs : List Char} (h : '\n' ∉ cs) (rest : List Char) :
    (longEscape 0 cs ++ '"' :: rest).head? ≠ some '\n' ∧
      (longEscape 0 cs ++ '"' :: rest).head? ≠ some '\x0d' := by
  cases cs with
  | nil => simp [longEscape]
  | cons c cs =>
    have hnewline : c ≠ '\n' := fun hc => h (hc ▸ List.mem_cons_self)
    by_cases hquote : c = '"'
    · simp [longEscape, hquote]
    simp only [longEscape, if_neg hquote, if_neg hnewline]
    cases hl : letter? c with
    | some l => simp [escape, hl]
    | none =>
      rw [escape_of_letter?_none hl]
      split
      · simp
      · rename_i hc
        have hbare := plain_of_bare hl (by simpa using hc)
        simp [hbare]

theorem head?_inLiteral {cs : List Char} (h : ∀ c ∈ cs, InLiteral c) (hn : '\n' ∉ cs)
    (rest : List Char) :
    (cs ++ '\'' :: rest).head? ≠ some '\n' ∧ (cs ++ '\'' :: rest).head? ≠ some '\x0d' := by
  cases cs with
  | nil => simp
  | cons c cs =>
    have hc : InLiteral c := h c List.mem_cons_self
    simp only [List.cons_append, List.head?_cons, ne_eq, Option.some.injEq]
    exact ⟨fun heq => hn (heq ▸ List.mem_cons_self), hc.ne_return⟩

/-- A text that is written in some style is read from it. -/
theorem read_quoted (cs : List Char) {rest : List Char} (hrest : Clear rest) :
    Quoted.read (quoted cs ++ rest) = some (cs, rest) := by
  obtain ⟨hdouble, hsingle⟩ := hrest
  unfold quoted
  split
  · rw [List.append_assoc, List.cons_append, Quoted.read]
    · exact basic_quoted cs rest
    · intro more hmore
      cases cs with
      | nil => simp_all
      | cons c cs =>
        rw [List.flatMap_cons, List.append_assoc] at hmore
        exact escape_ne_quote c _ _ hmore
  · rename_i hstyle
    have hcs := literal_of_styleOf hstyle
    rw [List.append_assoc, List.cons_append, Quoted.read]
    · exact literal_quoted hcs rest
    · intro more hmore
      cases cs with
      | nil => simp_all
      | cons c cs =>
        have hc := (hcs c List.mem_cons_self).2
        simp_all
  · have hbody := longBasic_quoted (Nat.zero_le 2) cs hdouble
    simp only [List.append_assoc, List.cons_append, List.nil_append, Quoted.read]
    rw [dropFirstLine_opening fun hn => head?_longEscape hn _]
    exact hbody
  · rename_i hstyle
    obtain ⟨hplain, hrun⟩ := longLiteral_of_styleOf hstyle
    have hbody := longLiteral_quoted hrun hplain hsingle
    simp only [List.append_assoc, List.cons_append, List.nil_append, Quoted.read]
    rw [dropFirstLine_opening fun hn => head?_inLiteral hplain hn _]
    exact hbody

end MeshShell.Toml
