import MeshShell.Text.Utf8

/-! # Bytes as pairs of hexadecimal digits

Writing uses small digits, reading takes both cases. A text of odd length, or
with any other character, stands for no bytes.
-/
namespace MeshShell.Hex

def digit (n : Nat) : Char :=
  Char.ofNat (if n % 16 < 10 then 48 + n % 16 else 87 + n % 16)

/-- The value of a digit in either case. -/
def value? (c : Char) : Option Nat :=
  let n := c.toNat
  if 48 ≤ n && n ≤ 57 then some (n - 48)
  else if 97 ≤ n && n ≤ 102 then some (n - 87)
  else if 65 ≤ n && n ≤ 70 then some (n - 55)
  else none

def encode : Bytes → List Char
  | [] => []
  | b :: bs => digit (b.toNat / 16) :: digit b.toNat :: encode bs

def decode? : List Char → Option Bytes
  | [] => some []
  | [_] => none
  | h :: l :: rest => do
    let h ← value? h
    let l ← value? l
    let bs ← decode? rest
    return UInt8.ofNat (16 * h + l) :: bs

def text (bytes : Bytes) : String := String.ofList (encode bytes)

/-- The low `width` digits of a number, highest first. -/
def digits (width n : Nat) : List Char :=
  (List.range width).reverse.map fun i => digit (n / Nat.pow 16 i)

theorem value?_digit (n : Nat) : value? (digit n) = some (n % 16) := by
  have key : ∀ m : Fin 16, value? (digit m.val) = some m.val := by decide
  have h := key ⟨n % 16, Nat.mod_lt n (by decide)⟩
  simpa [digit] using h

theorem decode?_encode (bytes : Bytes) : decode? (encode bytes) = some bytes := by
  induction bytes with
  | nil => rfl
  | cons b bs ih =>
    have hb : b.toNat < 256 := b.toNat_lt
    have hd : b.toNat / 16 % 16 = b.toNat / 16 := Nat.mod_eq_of_lt (by omega)
    have hs : 16 * (b.toNat / 16) + b.toNat % 16 = b.toNat := by omega
    simp only [encode, decode?, value?_digit, ih, hd]
    change some (UInt8.ofNat (16 * (b.toNat / 16) + b.toNat % 16) :: bs) = some (b :: bs)
    rw [hs, UInt8.ofNat_toNat]

end MeshShell.Hex
