import MeshShell.Json.Reader
import MeshShell.Message.Field
import MeshShell.Proofs.Json.Tokens

/-! # What is written is read back

The tokens of a value build that value again, so a value whose spellings can
stand in a text is read back from its compact form. What is made of strings,
whole numbers and lists of fields is such a value.
-/
namespace MeshShell.Json

/-- A list of tokens completes a value, wherever the value stands. -/
def Builds (ts : List Token) (v : Json) : Prop :=
  ∀ around rest, (ts ++ rest).foldlM Stage.step (.value around) =
    rest.foldlM Stage.step (.place v around)

theorem Builds.of_token {t : Token} {v : Json}
    (h : ∀ around, Stage.start around t = some (.place v around)) : Builds [t] v := by
  intro around rest
  have hstep : Stage.step (.value around) t = some (.place v around) := h around
  rw [List.singleton_append, List.foldlM_cons, hstep]
  rfl

/-- No value starts with the end of an array, so an array that was just opened may go on. -/
theorem start_of_opened (v : Json) (around : List Frame) (rest : List Token) :
    (v.tokens ++ rest).foldlM Stage.step (.opened around) =
      (v.tokens ++ rest).foldlM Stage.step (.value (.items [] :: around)) := by
  cases v <;> rfl

/-- What was read of an array before is kept backwards. -/
theorem builds_items {items : List Json} (h : ∀ v ∈ items, Builds v.tokens v) (hne : items ≠ [])
    (before : List Json) (around : List Frame) (rest : List Token) :
    (itemTokens items ++ Token.closeArray :: rest).foldlM Stage.step
        (.value (.items before :: around)) =
      rest.foldlM Stage.step (.place (.array (before.reverse ++ items)) around) := by
  induction items generalizing before with
  | nil => exact absurd rfl hne
  | cons v items ih =>
    have hv := h v List.mem_cons_self
    cases items with
    | nil =>
      rw [itemTokens, hv, ← List.reverse_cons]
      rfl
    | cons w items =>
      have hrest := ih (fun u hu => h u (List.mem_cons_of_mem v hu)) (List.cons_ne_nil w items) (v :: before)
      rw [itemTokens, List.append_assoc, hv, List.cons_append, List.foldlM_cons]
      rw [List.reverse_cons, List.append_assoc] at hrest
      exact hrest

theorem builds_array {items : List Json} (h : ∀ v ∈ items, Builds v.tokens v) :
    Builds (tokens (.array items)) (.array items) := by
  intro around rest
  cases items with
  | nil => rfl
  | cons v items =>
    have hitems := builds_items h (List.cons_ne_nil v items) [] around rest
    have hsplit : tokens (.array (v :: items)) ++ rest =
        .openArray :: (itemTokens (v :: items) ++ Token.closeArray :: rest) := by simp [tokens]
    rw [hsplit, List.foldlM_cons]
    refine Eq.trans ?_ hitems
    cases items with
    | nil => exact start_of_opened v around _
    | cons w items =>
      rw [itemTokens, List.append_assoc]
      exact start_of_opened v around _

theorem builds_members {members : List (Quoted × Json)} (h : ∀ m ∈ members, Builds m.2.tokens m.2)
    (hne : members ≠ []) (first : Bool) (before : List (Quoted × Json)) (around : List Frame)
    (rest : List Token) :
    (memberTokens members ++ Token.closeObject :: rest).foldlM Stage.step (.key first before around) =
      rest.foldlM Stage.step (.place (.object (before.reverse ++ members)) around) := by
  induction members generalizing first before with
  | nil => exact absurd rfl hne
  | cons m members ih =>
    obtain ⟨k, v⟩ := m
    have hv : Builds v.tokens v := h (k, v) List.mem_cons_self
    have hkey : Stage.step (.key first before around) (.quoted k) = some (.colon before k around) := by
      cases first <;> rfl
    cases members with
    | nil =>
      rw [memberTokens, List.cons_append, List.cons_append, List.foldlM_cons, hkey, ← List.reverse_cons]
      exact hv _ _
    | cons m' members =>
      have hrest := ih (fun m hm => h m (List.mem_cons_of_mem _ hm)) (List.cons_ne_nil m' members)
        false ((k, v) :: before)
      rw [List.reverse_cons, List.append_assoc] at hrest
      rw [memberTokens, List.append_assoc, List.cons_append, List.cons_append, List.foldlM_cons, hkey]
      exact (hv _ _).trans hrest

theorem builds_object {members : List (Quoted × Json)} (h : ∀ m ∈ members, Builds m.2.tokens m.2) :
    Builds (tokens (.object members)) (.object members) := by
  intro around rest
  cases members with
  | nil => rfl
  | cons m members =>
    have hsplit : tokens (.object (m :: members)) ++ rest =
        .openObject :: (memberTokens (m :: members) ++ Token.closeObject :: rest) := by simp [tokens]
    rw [hsplit]
    exact builds_members h (List.cons_ne_nil m members) true [] around rest

theorem Legible.builds {v : Json} (h : v.Legible) : Builds v.tokens v := by
  induction h with
  | null => exact .of_token fun _ => rfl
  | boolean => exact .of_token fun _ => rfl
  | number => exact .of_token fun _ => rfl
  | text => exact .of_token fun _ => rfl
  | array _ ih => exact builds_array ih
  | object _ _ ih => exact builds_object ih

theorem Legible.ofText?_compactText {v : Json} (h : v.Legible) : ofText? v.compactText = some v := by
  have hbuild := h.builds [] []
  rw [List.append_nil] at hbuild
  rw [ofText?, compactText, String.toList_ofList, parse?, h.tokens?_render, Option.bind_some, ofTokens?,
    hbuild]
  rfl

theorem escaped?_letterOf {c : Char} (h : (letterOf? c).isSome) :
    escaped? ((letterOf? c).getD c) = some c := by
  obtain ⟨letter, hletter⟩ := Option.isSome_iff_exists.mp h
  have hmem := List.lookup_eq_some_iff.mp hletter
  obtain ⟨before, after, hsplit, -⟩ := hmem
  have hall : ∀ p ∈ shortEscapes, escaped? ((letterOf? p.1).getD p.1) = some p.1 := by decide
  exact hall (c, letter) (by rw [hsplit]; simp)

theorem letterOf?_isSome_of_mark {c : Char} (h : c = '"' ∨ c = '\\') : (letterOf? c).isSome := by
  rcases h with rfl | rfl <;> decide

theorem Quoted.legible_ofChars (cs : List Char) : (Quoted.ofChars cs).Legible := by
  intro p hp
  obtain ⟨c, -, rfl⟩ := List.mem_map.mp hp
  split
  · rename_i h
    exact escaped?_letterOf h
  · rename_i hletter
    split
    · rename_i h
      show c.toNat < 0x10000
      omega
    · exact ⟨fun hc => hletter (letterOf?_isSome_of_mark (.inl hc)),
        fun hc => hletter (letterOf?_isSome_of_mark (.inr hc))⟩

/-- A control character has no partner, so what follows is read by itself. -/
theorem Quoted.chars?_unit {n : Nat} (h : n < 0xD800) (q : Quoted) :
    Quoted.chars? (.unit n :: q) = (Char.ofNat n :: ·) <$> Quoted.chars? q := by
  have hlead : isLeading n = false := by simp [isLeading]; omega
  have htrail : isTrailing n = false := by simp [isTrailing]; omega
  cases q with
  | nil => simp [Quoted.chars?, hlead, htrail]
  | cons p q => cases p <;> simp [Quoted.chars?, hlead, htrail]

theorem Quoted.chars?_ofChars (cs : List Char) : Quoted.chars? (Quoted.ofChars cs) = some cs := by
  induction cs with
  | nil => rfl
  | cons c cs ih =>
    have htail : Quoted.ofChars (c :: cs) = (if (letterOf? c).isSome then .escaped c
        else if c.toNat < 0x20 then .unit c.toNat else .plain c) :: Quoted.ofChars cs := rfl
    rw [htail]
    split
    · simp [Quoted.chars?, ih]
    split
    · rename_i h
      rw [Quoted.chars?_unit (by omega), ih, Char.ofNat_toNat]
      rfl
    · rename_i h
      simp [Quoted.chars?, ih, h]

@[simp] theorem Quoted.string?_ofString (s : String) : Quoted.string? (Quoted.ofString s) = some s := by
  simp [Quoted.string?, Quoted.ofString, Quoted.chars?_ofChars]

@[simp] theorem string?_ofString (s : String) : string? (ofString s) = some s := Quoted.string?_ofString s

theorem legible_ofString (s : String) : (ofString s).Legible := .text (Quoted.legible_ofChars s.toList)

theorem breaks_digit {c : Char} (h : Decimal.isDigit c = true) : breaks c = false :=
  Decimal.forall_digit (P := fun c => breaks c = false) (by decide) h

theorem ofWord?_of_isNumber {w : List Char} (h : isNumber w = true) :
    Token.ofWord? w = some (.number w) := by
  have hnull : w ≠ "null".toList := by rintro rfl; revert h; decide
  have htrue : w ≠ "true".toList := by rintro rfl; revert h; decide
  have hfalse : w ≠ "false".toList := by rintro rfl; revert h; decide
  rw [Token.ofWord?, if_neg hnull, if_neg htrue, if_neg hfalse, if_pos h]

theorem isUnsigned_digits (n : Nat) : isUnsigned (Decimal.digits n) = true := by
  unfold isUnsigned
  split
  · rename_i cs hcs
    rw [Decimal.eq_nil_of_digits hcs]
    rfl
  · rw [Decimal.takeWhile_digits, Decimal.dropWhile_digits]
    simp [digitsOnly, Decimal.digits_ne_nil, Decimal.all_isDigit_digits, isFraction, isExponent]

theorem digits_ne_minus (n : Nat) (cs : List Char) : Decimal.digits n ≠ '-' :: cs := by
  intro h
  have hdigit := Decimal.isDigit_of_mem (c := '-') (n := n) (by rw [h]; exact List.mem_cons_self)
  revert hdigit
  decide

theorem isWord_integerDigits (n : Int) :
    IsWord (Decimal.integerDigits n) (.number (Decimal.integerDigits n)) := by
  cases n with
  | ofNat n =>
    refine ⟨Decimal.digits_ne_nil n, fun c hc => breaks_digit (Decimal.isDigit_of_mem hc),
      ofWord?_of_isNumber ?_⟩
    unfold Decimal.integerDigits isNumber
    split
    · rename_i cs hcs
      exact absurd hcs (digits_ne_minus n cs)
    · exact isUnsigned_digits n
  | negSucc n =>
    refine ⟨List.cons_ne_nil _ _, ?_, ofWord?_of_isNumber (isUnsigned_digits (n + 1))⟩
    intro c hc
    rcases List.mem_cons.mp hc with rfl | hc
    · decide
    · exact breaks_digit (Decimal.isDigit_of_mem hc)

theorem legible_ofInt (n : Int) : (ofInt n).Legible := .number (isWord_integerDigits n)

theorem integer?_ofInt (n : Int) : integer? (ofInt n) = some n := by
  cases n with
  | ofNat n =>
    unfold ofInt integer? Decimal.integerDigits
    split
    · rename_i ds hds
      exact absurd (number.inj hds) (digits_ne_minus n ds)
    · rename_i ds _ hds
      rw [← number.inj hds, Decimal.natural?_digits]
      rfl
    · rename_i hno
      exact absurd rfl (hno _)
  | negSucc n =>
    simp only [ofInt, Decimal.integerDigits, integer?, Decimal.natural?_digits, Option.bind_eq_bind,
      Option.bind_some, Nat.add_one_ne_zero, if_false]
    rfl

theorem bounded?_ofInt {low high n : Int} (h : low ≤ n ∧ n ≤ high) :
    bounded? low high (ofInt n) = some n := by
  simp [bounded?, integer?_ofInt, h]

end MeshShell.Json
