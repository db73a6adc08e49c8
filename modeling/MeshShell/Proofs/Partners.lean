import Mathlib.Data.List.Forall2

/-! # Partners and strangers

Of two runs one has everything that the other has, under other numbers, and more
besides. A bond tells which number of the larger run is the partner of which
number of the smaller one, and which numbers are strangers to it. A list is
woven into another one when the other holds a partner for each of its items, in
the same order, and strangers in between.
-/
namespace MeshShell

structure Bond where
  partner : Nat → Nat → Prop
  stranger : Nat → Prop

namespace Bond

variable {b b' b'' : Bond} {x y m n : Nat}

/-- A stranger has only itself for a partner. -/
def own (b : Bond) (y y' : Nat) : Prop := y' = y ∧ b.stranger y

structure Fair (b : Bond) : Prop where
  left : ∀ {x y y'}, b.partner x y → b.partner x y' → y = y'
  right : ∀ {x x' y}, b.partner x y → b.partner x' y → x = x'
  apart : ∀ {x y}, b.partner x y → ¬ b.stranger y

/-- Only the numbers below these bounds are in use. -/
structure Below (b : Bond) (m n : Nat) : Prop where
  partner : ∀ {x y}, b.partner x y → x < m ∧ y < n
  stranger : ∀ {y}, b.stranger y → y < n

/-- All partners and strangers stay what they are. -/
structure Le (b b' : Bond) : Prop where
  partner : ∀ {x y}, b.partner x y → b'.partner x y
  stranger : ∀ {y}, b.stranger y → b'.stranger y

theorem Le.refl (b : Bond) : b.Le b := ⟨id, id⟩

theorem Le.trans (h : b.Le b') (h' : b'.Le b'') : b.Le b'' :=
  ⟨fun hp => h'.partner (h.partner hp), fun hs => h'.stranger (h.stranger hs)⟩

theorem Le.own (h : b.Le b') {y y' : Nat} (ho : b.own y y') : b'.own y y' :=
  ⟨ho.1, h.stranger ho.2⟩

/-- Two numbers become partners. -/
def tie (b : Bond) (x y : Nat) : Bond :=
  { b with partner := fun x' y' => b.partner x' y' ∨ x' = x ∧ y' = y }

/-- A number becomes a stranger. -/
def lose (b : Bond) (y : Nat) : Bond := { b with stranger := fun y' => b.stranger y' ∨ y' = y }

/-- No number is in use. -/
def empty : Bond := ⟨fun _ _ => False, fun _ => False⟩

theorem fair_empty : empty.Fair := ⟨False.elim, False.elim, False.elim⟩

theorem below_empty (m n : Nat) : empty.Below m n := ⟨False.elim, False.elim⟩

theorem le_tie (b : Bond) (x y : Nat) : b.Le (b.tie x y) := ⟨.inl, id⟩

theorem le_lose (b : Bond) (y : Nat) : b.Le (b.lose y) := ⟨id, .inl⟩

theorem tie_partner (b : Bond) (x y : Nat) : (b.tie x y).partner x y := .inr ⟨rfl, rfl⟩

theorem lose_own (b : Bond) (y : Nat) : (b.lose y).own y y := ⟨rfl, .inr rfl⟩

theorem Fair.tie (hb : b.Fair) (hx : ∀ y', ¬ b.partner x y') (hy : ∀ x', ¬ b.partner x' y)
    (hs : ¬ b.stranger y) : (b.tie x y).Fair where
  left := by
    rintro x₁ y₁ y₂ (h₁ | ⟨rfl, rfl⟩) (h₂ | ⟨h₂, rfl⟩)
    · exact hb.left h₁ h₂
    · exact absurd (h₂ ▸ h₁) (hx _)
    · exact absurd h₂ (hx _)
    · rfl
  right := by
    rintro x₁ x₂ y₁ (h₁ | ⟨rfl, rfl⟩) (h₂ | ⟨rfl, h₂⟩)
    · exact hb.right h₁ h₂
    · exact absurd (h₂ ▸ h₁) (hy _)
    · exact absurd h₂ (hy _)
    · rfl
  apart := by
    rintro x₁ y₁ (h₁ | ⟨-, rfl⟩)
    · exact hb.apart h₁
    · exact hs

theorem Fair.lose (hb : b.Fair) (hy : ∀ x', ¬ b.partner x' y) : (b.lose y).Fair where
  left := hb.left
  right := hb.right
  apart := by
    rintro x₁ y₁ h₁ (h₂ | rfl)
    · exact hb.apart h₁ h₂
    · exact hy x₁ h₁

theorem Below.tie (h : b.Below m n) : (b.tie m n).Below (m + 1) (n + 1) where
  partner := by
    rintro x₁ y₁ (h₁ | ⟨rfl, rfl⟩)
    · exact ⟨Nat.lt_succ_of_lt (h.partner h₁).1, Nat.lt_succ_of_lt (h.partner h₁).2⟩
    · exact ⟨Nat.lt_succ_self _, Nat.lt_succ_self _⟩
  stranger := fun hs => Nat.lt_succ_of_lt (h.stranger hs)

theorem Below.lose (h : b.Below m n) : (b.lose n).Below m (n + 1) where
  partner := fun hp => ⟨(h.partner hp).1, Nat.lt_succ_of_lt (h.partner hp).2⟩
  stranger := by
    rintro y₁ (hs | rfl)
    · exact Nat.lt_succ_of_lt (h.stranger hs)
    · exact Nat.lt_succ_self _

theorem Fair.tie_next (hb : b.Fair) (h : b.Below m n) : (b.tie m n).Fair :=
  hb.tie (fun _ hp => Nat.lt_irrefl _ (h.partner hp).1) (fun _ hp => Nat.lt_irrefl _ (h.partner hp).2)
    fun hs => Nat.lt_irrefl _ (h.stranger hs)

theorem Fair.lose_next (hb : b.Fair) (h : b.Below m n) : (b.lose n).Fair :=
  hb.lose fun _ hp => Nat.lt_irrefl _ (h.partner hp).2

end Bond

variable {α β γ δ : Type}

inductive Woven (partner : α → β → Prop) (stranger : β → Prop) : List α → List β → Prop
  | nil : Woven partner stranger [] []
  | both {a : α} {b : β} {as : List α} {bs : List β} : partner a b →
      Woven partner stranger as bs → Woven partner stranger (a :: as) (b :: bs)
  | extra {b : β} {as : List α} {bs : List β} : stranger b →
      Woven partner stranger as bs → Woven partner stranger as (b :: bs)

namespace Woven

variable {partner partner' : α → β → Prop} {stranger stranger' : β → Prop}
  {as : List α} {bs : List β}

theorem mono (h : Woven partner stranger as bs) (hp : ∀ a b, partner a b → partner' a b)
    (hs : ∀ b, stranger b → stranger' b) : Woven partner' stranger' as bs := by
  induction h with
  | nil => exact .nil
  | both hab _ ih => exact .both (hp _ _ hab) ih
  | extra hb _ ih => exact .extra (hs _ hb) ih

theorem append {as' : List α} {bs' : List β} (h : Woven partner stranger as bs)
    (h' : Woven partner stranger as' bs') : Woven partner stranger (as ++ as') (bs ++ bs') := by
  induction h with
  | nil => exact h'
  | both hab _ ih => exact .both hab ih
  | extra hb _ ih => exact .extra hb ih

theorem snoc {a : α} {b : β} (h : Woven partner stranger as bs) (hab : partner a b) :
    Woven partner stranger (as ++ [a]) (bs ++ [b]) := h.append (.both hab .nil)

theorem snoc_extra {b : β} (h : Woven partner stranger as bs) (hb : stranger b) :
    Woven partner stranger as (bs ++ [b]) := by
  simpa using h.append (.extra hb .nil)

section Choice

variable {p : α → Bool} {q : β → Bool}

theorem filter (h : Woven partner stranger as bs) (hpq : ∀ a b, partner a b → p a = q b) :
    Woven partner stranger (as.filter p) (bs.filter q) := by
  induction h with
  | nil => exact .nil
  | @both a b as bs hab _ ih =>
    rw [List.filter_cons, List.filter_cons, hpq a b hab]
    split
    · exact .both hab ih
    · exact ih
  | @extra b as bs hb _ ih =>
    rw [List.filter_cons]
    split
    · exact .extra hb ih
    · exact ih

theorem filter_extra (h : Woven partner stranger as bs) (hq : ∀ a b, partner a b → q b = true) :
    Woven partner stranger as (bs.filter q) := by
  have hall := h.filter (p := fun _ => true) (q := q) fun a b hab => (hq a b hab).symm
  simpa using hall

theorem find? (h : Woven partner stranger as bs) (hpq : ∀ a b, partner a b → p a = q b)
    (hq : ∀ b, stranger b → q b = false) : Option.Rel partner (as.find? p) (bs.find? q) := by
  induction h with
  | nil => exact .none
  | @both a b as bs hab _ ih =>
    rw [List.find?_cons, List.find?_cons, hpq a b hab]
    split
    · exact .some hab
    · exact ih
  | @extra b as bs hb _ ih =>
    rw [List.find?_cons, hq b hb]
    exact ih

theorem find?_extra (h : Woven partner stranger as bs) (hq : ∀ a b, partner a b → q b = false)
    {b : β} (hb : bs.find? q = some b) : stranger b := by
  induction h with
  | nil => simp at hb
  | @both a c as bs hac _ ih =>
    rw [List.find?_cons, hq a c hac] at hb
    exact ih hb
  | @extra c as bs hc _ ih =>
    rw [List.find?_cons] at hb
    split at hb
    · exact Option.some.inj hb ▸ hc
    · exact ih hb

theorem any (h : Woven partner stranger as bs) (hpq : ∀ a b, partner a b → p a = q b)
    (hq : ∀ b, stranger b → q b = false) : bs.any q = as.any p := by
  induction h with
  | nil => rfl
  | @both a b as bs hab _ ih => rw [List.any_cons, List.any_cons, hpq a b hab, ih]
  | @extra b as bs hb _ ih => rw [List.any_cons, hq b hb, ih, Bool.false_or]

theorem filterMap {f : α → Option γ} {g : β → Option γ} (h : Woven partner stranger as bs)
    (hfg : ∀ a b, partner a b → g b = f a) (hg : ∀ b, stranger b → g b = none) :
    bs.filterMap g = as.filterMap f := by
  induction h with
  | nil => rfl
  | @both a b as bs hab _ ih => rw [List.filterMap_cons, List.filterMap_cons, hfg a b hab, ih]
  | @extra b as bs hb _ ih => rw [List.filterMap_cons, hg b hb, ih]

end Choice

theorem foldl {r : γ → δ → Prop} {f : γ → α → γ} {g : δ → β → δ}
    (h : Woven partner stranger as bs)
    (hboth : ∀ c d a b, partner a b → r c d → r (f c a) (g d b))
    (hextra : ∀ c d b, stranger b → r c d → r c (g d b)) {c : γ} {d : δ} (hcd : r c d) :
    r (as.foldl f c) (bs.foldl g d) := by
  induction h generalizing c d with
  | nil => exact hcd
  | both hab _ ih => exact ih (hboth _ _ _ _ hab hcd)
  | extra hb _ ih => exact ih (hextra _ _ _ hb hcd)

end Woven

end MeshShell
