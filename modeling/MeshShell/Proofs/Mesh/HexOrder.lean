import MeshShell.Mesh.Destination
import Mathlib.Data.String.Basic

/-! # The order of hexadecimal texts

A larger digit is a larger character, so bytes and the texts that are written
for them come in the same order. Different destinations have different texts.
-/
namespace MeshShell

namespace Hex

theorem digit_lt_digit_iff (m n : Nat) : digit m < digit n ↔ m % 16 < n % 16 := by
  have key : ∀ i j : Fin 16, digit i.val < digit j.val ↔ i.val < j.val := by decide
  have h := key ⟨m % 16, Nat.mod_lt m (by decide)⟩ ⟨n % 16, Nat.mod_lt n (by decide)⟩
  simpa [digit] using h

theorem digit_eq_digit_iff (m n : Nat) : digit m = digit n ↔ m % 16 = n % 16 := by
  constructor
  · intro h
    have hv := congrArg value? h
    rw [value?_digit, value?_digit] at hv
    exact Option.some.inj hv
  · intro h
    unfold digit
    rw [h]

theorem byte_lt_iff (a b : UInt8) :
    a < b ↔ a.toNat / 16 % 16 < b.toNat / 16 % 16 ∨
      a.toNat / 16 % 16 = b.toNat / 16 % 16 ∧ a.toNat % 16 < b.toNat % 16 := by
  have ha := a.toNat_lt
  have hb := b.toNat_lt
  rw [UInt8.lt_iff_toNat_lt]
  omega

theorem byte_eq_iff (a b : UInt8) :
    a = b ↔ a.toNat / 16 % 16 = b.toNat / 16 % 16 ∧ a.toNat % 16 = b.toNat % 16 := by
  have ha := a.toNat_lt
  have hb := b.toNat_lt
  rw [← UInt8.toNat_inj]
  omega

theorem encode_lt_encode_iff (as bs : Bytes) : encode as < encode bs ↔ as < bs := by
  induction as generalizing bs with
  | nil => cases bs <;> simp [encode]
  | cons a as ih =>
    cases bs with
    | nil => simp [encode]
    | cons b bs =>
      simp only [encode, List.cons_lt_cons_iff, digit_lt_digit_iff, digit_eq_digit_iff, ih,
        byte_lt_iff, byte_eq_iff]
      tauto

end Hex

namespace Destination

theorem text_lt_text_iff (a b : Destination) : a.text < b.text ↔ a < b := by
  rw [String.lt_iff_toList_lt, text, text, Hex.text, Hex.text, String.toList_ofList,
    String.toList_ofList]
  exact Hex.encode_lt_encode_iff a.bytes b.bytes

theorem text_injective {a b : Destination} (h : a.text = b.text) : a = b := by
  have hchars : Hex.encode a.bytes = Hex.encode b.bytes := String.ofList_injective h
  have hbytes := congrArg Hex.decode? hchars
  rw [Hex.decode?_encode, Hex.decode?_encode] at hbytes
  obtain ⟨a, ha⟩ := a
  obtain ⟨b, hb⟩ := b
  obtain rfl : a = b := Option.some.inj hbytes
  rfl

end Destination

end MeshShell
