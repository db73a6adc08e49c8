import MeshShell.Text.Hex
import MeshShell.Text.Scientific
import Mathlib.Algebra.Group.Nat.Defs
import Mathlib.Data.List.TakeDrop

/-! # What is written piece by piece

A run of decimal digits has no leading zero, and it is no longer than the
number asks for. A number of moderate length is within double precision. Four
digits of base sixteen hold a number of sixteen bits. A list is read back if
each of its items is.
-/
namespace MeshShell

theorem mapM_map {α β : Type} {read : β → Option α} {write : α → β} (h : ∀ a, read (write a) = some a)
    (as : List α) : (as.map write).mapM read = some as := by
  induction as with
  | nil => rfl
  | cons a as ih => simp [h, ih]

end MeshShell

namespace MeshShell.Decimal

theorem forall_digit {P : Char → Prop} (h : ∀ n : Fin 10, P (digit n.val)) {c : Char}
    (hc : isDigit c = true) : P c := by
  simp only [isDigit, Bool.and_eq_true, decide_eq_true_eq] at hc
  have hn := h ⟨c.toNat - 48, by omega⟩
  rwa [digit, show 48 + (c.toNat - 48) % 10 = c.toNat by omega, Char.ofNat_toNat] at hn

theorem isDigit_of_mem {c : Char} {n : Nat} (h : c ∈ digits n) : isDigit c = true :=
  List.all_eq_true.mp (all_isDigit_digits n) c h

theorem takeWhile_digits (n : Nat) : (digits n).takeWhile isDigit = digits n := by
  have h := @List.takeWhile_append_of_pos _ isDigit (digits n) [] fun c => isDigit_of_mem
  simpa using h

theorem dropWhile_digits (n : Nat) : (digits n).dropWhile isDigit = [] := by
  have h := @List.dropWhile_append_of_pos _ isDigit (digits n) [] fun c => isDigit_of_mem
  simpa using h

theorem eq_nil_of_digits {n : Nat} {cs : List Char} (h : digits n = '0' :: cs) : cs = [] := by
  induction n using Nat.strongRecOn generalizing cs with
  | _ n ih =>
    rw [digits] at h
    split at h
    · exact (List.cons.inj h).2.symm
    · rename_i hn
      exfalso
      obtain ⟨c, rest, hrest⟩ := List.exists_cons_of_ne_nil (digits_ne_nil (n / 10))
      rw [hrest, List.cons_append] at h
      obtain rfl := (List.cons.inj h).1
      obtain rfl := ih (n / 10) (by omega) hrest
      have hvalue := value_digits (n / 10)
      rw [hrest, show value ['0'] = 0 from rfl] at hvalue
      omega

theorem length_digits_le {n k : Nat} (h : n < 10 ^ (k + 1)) : (digits n).length ≤ k + 1 := by
  induction k generalizing n with
  | zero =>
    rw [digits, if_pos (by omega)]
    simp
  | succ k ih =>
    rw [digits]
    split
    · simp
    · have hrest := ih (n := n / 10) (by rw [Nat.pow_succ] at h; omega)
      simpa using hrest

end MeshShell.Decimal

namespace MeshShell.Hex

theorem digits_four (n : Nat) :
    digits 4 n = [digit (n / 4096), digit (n / 256), digit (n / 16), digit n] := by
  simp [digits, List.range_succ]

theorem value_four {n : Nat} (h : n < 0x10000) :
    16 * (16 * (16 * (n / 4096 % 16) + n / 256 % 16) + n / 16 % 16) + n % 16 = n := by
  omega

end MeshShell.Hex

namespace MeshShell.Scientific

theorem not_overflows_natural {n : Nat} (h : n < 10 ^ 100) : overflows ⟨n, 0⟩ = false := by
  have hlength : (Decimal.digits n).length ≤ 100 := Decimal.length_digits_le h
  have hlimit : 10 ^ 100 ≤ limit := by decide +kernel
  unfold overflows
  split
  · rfl
  · rw [if_neg (by dsimp only; omega)]
    split
    · rfl
    · simp only [Nat.pow_eq, Nat.pow_zero, Nat.mul_one, decide_eq_false_iff_not]
      omega

theorem ofDigits_digits (n : Nat) : ofDigits (Decimal.digits n) = ⟨n, 0⟩ := by
  have hparts : ofParts (Decimal.digits n) [] false [] = ⟨n, 0⟩ := by
    have hvalue : Decimal.value [] = 0 := rfl
    simp [ofParts, Decimal.value_digits, hvalue]
  unfold ofDigits
  simp only [List.span_eq_takeWhile_dropWhile, Decimal.takeWhile_digits, Decimal.dropWhile_digits]
  exact hparts

end MeshShell.Scientific
