import MeshShell.Json.Printer
import MeshShell.Json.Token
import MeshShell.Proofs.Text.Written

/-! # The marks and words of a written value

The compact form of a value is cut into just the tokens that the value is made
of. This needs that every spelling in the value is one that a text can have.
-/
namespace MeshShell.Json

/-- A character that ends a word. -/
def breaks (c : Char) : Bool := isSpace c || c == '"' || (mark? c).isSome

/-- A word that is a token of its own. -/
structure IsWord (w : List Char) (t : Token) : Prop where
  nonempty : w ≠ []
  solid : ∀ c ∈ w, breaks c = false
  token : Token.ofWord? w = some t

theorem IsWord.of_all {w : List Char} {t : Token} (hw : w ≠ []) (hs : w.all (!breaks ·) = true)
    (ht : Token.ofWord? w = some t) : IsWord w t :=
  ⟨hw, fun c hc => by simpa using List.all_eq_true.mp hs c hc, ht⟩

/-- The text is over, or it goes on with something that is no part of a word. -/
def Ends (rest : List Char) : Prop := ∀ c ∈ rest.head?, breaks c = true

@[simp] theorem ends_nil : Ends [] := fun _ h => nomatch h

@[simp] theorem ends_cons {c : Char} {cs : List Char} : Ends (c :: cs) ↔ breaks c = true := by
  simp [Ends]

theorem outside_finished (ts : List Token) (c : Char) :
    Cut.outside ts c = (ts ++ (Cut.outside [] c).1, (Cut.outside [] c).2) := by
  unfold Cut.outside
  split
  · simp
  split
  · simp
  split <;> simp

theorem outside_of_not_breaks {c : Char} (h : breaks c = false) : Cut.outside [] c = ([], .word [c]) := by
  simp only [breaks, Bool.or_eq_false_iff, beq_eq_false_iff_ne, Option.isSome_eq_false_iff,
    Option.isNone_iff_eq_none] at h
  obtain ⟨⟨hspace, hquote⟩, hmark⟩ := h
  simp [Cut.outside, hspace, hquote, hmark]

theorem tokensFrom?_between (c : Char) (cs : List Char) :
    tokensFrom? .between (c :: cs) =
      ((Cut.outside [] c).1 ++ ·) <$> tokensFrom? (Cut.outside [] c).2 cs := by
  rw [tokensFrom?]
  simp only [Cut.step, Option.bind_eq_bind, Option.bind_some]
  cases tokensFrom? (Cut.outside [] c).2 cs <;> rfl

theorem tokensFrom?_word {w : List Char} (solid : ∀ c ∈ w, breaks c = false) (before rest : List Char) :
    tokensFrom? (.word before) (w ++ rest) = tokensFrom? (.word (w.reverse ++ before)) rest := by
  induction w generalizing before with
  | nil => rfl
  | cons c w ih =>
    have hc : (isSpace c || c == '"' || (mark? c).isSome) = false := solid c List.mem_cons_self
    rw [List.cons_append, tokensFrom?]
    simp only [Cut.step, hc, Bool.false_eq_true, if_false, Option.bind_eq_bind, Option.bind_some]
    rw [ih (fun d hd => solid d (List.mem_cons_of_mem c hd)), List.reverse_cons, List.append_assoc]
    simp

theorem tokensFrom?_word_end {w : List Char} {t : Token} (h : Token.ofWord? w.reverse = some t)
    {rest : List Char} (hrest : Ends rest) :
    tokensFrom? (.word w) rest = (t :: ·) <$> tokensFrom? .between rest := by
  cases rest with
  | nil => simp [tokensFrom?, h]
  | cons c cs =>
    have hc : (isSpace c || c == '"' || (mark? c).isSome) = true := ends_cons.mp hrest
    rw [tokensFrom?_between, tokensFrom?]
    simp only [Cut.step, hc, if_true, h, Option.bind_eq_bind, Option.bind_some, Option.pure_def]
    rw [outside_finished [t] c]
    cases tokensFrom? (Cut.outside [] c).2 cs <;> rfl

theorem IsWord.tokensFrom? {w : List Char} {t : Token} (h : IsWord w t) {rest : List Char}
    (hrest : Ends rest) : tokensFrom? .between (w ++ rest) = (t :: ·) <$> tokensFrom? .between rest := by
  obtain ⟨c, cs, rfl⟩ := List.exists_cons_of_ne_nil h.nonempty
  rw [List.cons_append, tokensFrom?_between, outside_of_not_breaks (h.solid c List.mem_cons_self),
    tokensFrom?_word (fun d hd => h.solid d (List.mem_cons_of_mem c hd)),
    tokensFrom?_word_end (t := t) (by simpa using h.token) hrest]
  cases Json.tokensFrom? .between rest <;> rfl

theorem tokensFrom?_mark {c : Char} {t : Token} (h : mark? c = some t) (rest : List Char) :
    tokensFrom? .between (c :: rest) = (t :: ·) <$> tokensFrom? .between rest := by
  have hword : isSpace c = false ∧ c ≠ '"' := by
    unfold mark? at h
    split at h <;> first | decide | cases h
  rw [tokensFrom?_between]
  simp [Cut.outside, hword, h]

theorem breaks_of_mark {c : Char} {t : Token} (h : mark? c = some t) : breaks c = true := by
  simp [breaks, h]

/-- A piece that a text can hold. -/
def Piece.Legible : Piece → Prop
  | .plain c => c ≠ '"' ∧ c ≠ '\\'
  | .escaped c => escaped? ((letterOf? c).getD c) = some c
  | .unit n => n < 0x10000

abbrev Quoted.Legible (q : Quoted) : Prop := ∀ p ∈ q, p.Legible

theorem tokensFrom?_piece {p : Piece} (h : p.Legible) (before : Quoted) (rest : List Char) :
    tokensFrom? (.quoted before) (p.render ++ rest) = tokensFrom? (.quoted (p :: before)) rest := by
  cases p with
  | plain c => simp [Piece.render, tokensFrom?, Cut.step, h.1, h.2]
  | escaped c =>
    have hu : (letterOf? c).getD c ≠ 'u' := by
      intro hu
      have hnone : escaped? 'u' = none := by decide
      rw [Piece.Legible, hu, hnone] at h
      cases h
    simp [Piece.render, tokensFrom?, Cut.step, hu, show escaped? _ = _ from h]
  | unit n =>
    simp [Piece.render, Hex.digits_four, tokensFrom?, Cut.step, Hex.value?_digit, Hex.value_four h]

theorem tokensFrom?_pieces {q : Quoted} (h : q.Legible) (before : Quoted) (rest : List Char) :
    tokensFrom? (.quoted before) (q.flatMap Piece.render ++ rest) =
      tokensFrom? (.quoted (q.reverse ++ before)) rest := by
  induction q generalizing before with
  | nil => rfl
  | cons p q ih =>
    rw [List.flatMap_cons, List.append_assoc, tokensFrom?_piece (h p List.mem_cons_self),
      ih fun r hr => h r (List.mem_cons_of_mem p hr)]
    simp

theorem tokensFrom?_quoted {q : Quoted} (h : q.Legible) (rest : List Char) :
    tokensFrom? .between (q.render ++ rest) = (.quoted q :: ·) <$> tokensFrom? .between rest := by
  have houtside : Cut.outside [] '"' = ([], .quoted []) := by decide
  rw [Quoted.render, List.append_assoc, List.cons_append, tokensFrom?_between, houtside,
    tokensFrom?_pieces h]
  simp only [List.append_nil, List.singleton_append, tokensFrom?, Cut.step, List.reverse_reverse,
    if_true, Option.bind_eq_bind, Option.bind_some]
  cases tokensFrom? .between rest <;> rfl

/-- A value all of whose spellings can stand in a text. -/
inductive Legible : Json → Prop
  | null : Legible .null
  | boolean (b : Bool) : Legible (.boolean b)
  | number {w : List Char} (h : IsWord w (.number w)) : Legible (.number w)
  | text {q : Quoted} (h : q.Legible) : Legible (.text q)
  | array {items : List Json} (h : ∀ v ∈ items, Legible v) : Legible (.array items)
  | object {members : List (Quoted × Json)} (keys : ∀ m ∈ members, Quoted.Legible m.1)
      (values : ∀ m ∈ members, Legible m.2) : Legible (.object members)

mutual

/-- The tokens that a value is made of. -/
def tokens : Json → List Token
  | .null => [.literal none]
  | .boolean b => [.literal (some b)]
  | .number w => [.number w]
  | .text q => [.quoted q]
  | .array items => .openArray :: itemTokens items ++ [.closeArray]
  | .object members => .openObject :: memberTokens members ++ [.closeObject]

def itemTokens : List Json → List Token
  | [] => []
  | [v] => tokens v
  | v :: w :: rest => tokens v ++ .comma :: itemTokens (w :: rest)

def memberTokens : List (Quoted × Json) → List Token
  | [] => []
  | [(k, v)] => .quoted k :: .colon :: tokens v
  | (k, v) :: m :: rest => .quoted k :: .colon :: tokens v ++ .comma :: memberTokens (m :: rest)

end

/-- A text is cut into the given tokens and those of what stands behind it. -/
def CutsInto (cs : List Char) (ts : List Token) : Prop :=
  ∀ rest, Ends rest → tokensFrom? .between (cs ++ rest) = (ts ++ ·) <$> tokensFrom? .between rest

namespace CutsInto

variable {cs ds : List Char} {ts us : List Token} {c : Char} {t : Token}

theorem nil : CutsInto [] [] := fun rest _ => by cases h : tokensFrom? .between rest <;> simp [h]

theorem of_isWord {w : List Char} (h : IsWord w t) : CutsInto w [t] := fun _ => h.tokensFrom?

theorem of_quoted {q : Quoted} (h : q.Legible) : CutsInto q.render [.quoted q] :=
  fun rest _ => tokensFrom?_quoted h rest

theorem mark (hc : mark? c = some t) (h : CutsInto cs ts) : CutsInto (c :: cs) (t :: ts) := by
  intro rest hrest
  rw [List.cons_append, tokensFrom?_mark hc, h rest hrest]
  cases tokensFrom? .between rest <;> rfl

theorem append_mark (h : CutsInto cs ts) (hc : mark? c = some t) (h' : CutsInto ds us) :
    CutsInto (cs ++ c :: ds) (ts ++ t :: us) := by
  intro rest hrest
  rw [List.append_assoc, List.cons_append, h _ (ends_cons.mpr (breaks_of_mark hc)),
    ← List.cons_append, mark hc h' rest hrest]
  cases tokensFrom? .between rest <;> simp

theorem items {items : List Json} (h : ∀ v ∈ items, CutsInto v.render v.tokens) :
    CutsInto (renderItems items) (itemTokens items) := by
  match items with
  | [] => exact nil
  | [v] => exact h v List.mem_cons_self
  | v :: w :: rest =>
    have hrest : CutsInto (renderItems (w :: rest)) (itemTokens (w :: rest)) :=
      CutsInto.items fun u hu => h u (List.mem_cons_of_mem v hu)
    exact (h v List.mem_cons_self).append_mark rfl hrest

theorem member {k : Quoted} {v : Json} (hk : k.Legible) (hv : CutsInto v.render v.tokens) :
    CutsInto (k.render ++ ':' :: v.render) (.quoted k :: .colon :: v.tokens) :=
  (of_quoted hk).append_mark rfl hv

theorem members {members : List (Quoted × Json)} (hk : ∀ m ∈ members, Quoted.Legible m.1)
    (hv : ∀ m ∈ members, CutsInto m.2.render m.2.tokens) :
    CutsInto (renderMembers members) (memberTokens members) := by
  match members with
  | [] => exact nil
  | [(k, v)] => exact member (hk _ List.mem_cons_self) (hv _ List.mem_cons_self)
  | (k, v) :: m :: rest =>
    have hrest : CutsInto (renderMembers (m :: rest)) (memberTokens (m :: rest)) :=
      CutsInto.members (fun m' hm => hk m' (List.mem_cons_of_mem _ hm))
        fun m' hm => hv m' (List.mem_cons_of_mem _ hm)
    exact (member (hk _ List.mem_cons_self) (hv _ List.mem_cons_self)).append_mark rfl hrest

end CutsInto

theorem isWord_null : IsWord "null".toList (.literal none) :=
  .of_all (by decide) (by decide) (by decide)

theorem isWord_literal (b : Bool) : IsWord (literal b) (.literal (some b)) := by
  cases b <;> exact .of_all (by decide) (by decide) (by decide)

theorem Legible.cutsInto {v : Json} (h : v.Legible) : CutsInto v.render v.tokens := by
  induction h with
  | null => exact .of_isWord isWord_null
  | boolean b => exact .of_isWord (isWord_literal b)
  | number h => exact .of_isWord h
  | text h => exact .of_quoted h
  | array _ ih => exact .mark rfl ((CutsInto.items ih).append_mark rfl .nil)
  | object keys _ ih => exact .mark rfl ((CutsInto.members keys ih).append_mark rfl .nil)

theorem Legible.tokens?_render {v : Json} (h : v.Legible) : tokens? v.render = some v.tokens := by
  have hcut := h.cutsInto [] ends_nil
  rw [List.append_nil] at hcut
  rw [tokens?, hcut]
  simp [tokensFrom?]

end MeshShell.Json
