/-! # Whole numbers in decimal

The digits of a number without leading zeros, and the value of a run of
digits. Reading what was written gives the number back.
-/
namespace MeshShell.Decimal

def digit (n : Nat) : Char := Char.ofNat (48 + n % 10)

def isDigit (c : Char) : Bool := 48 ≤ c.toNat && c.toNat ≤ 57

def digits (n : Nat) : List Char :=
  if n < 10 then [digit n] else digits (n / 10) ++ [digit n]
termination_by n

def value (cs : List Char) : Nat := cs.foldl (fun n c => 10 * n + (c.toNat - 48)) 0

/-- A run of one or more digits. -/
def natural? (cs : List Char) : Option Nat :=
  if cs ≠ [] ∧ cs.all isDigit then some (value cs) else none

/-- A number that fits 64 bits, with an optional plus sign and any number of leading zeros. -/
def word64? (cs : List Char) : Option Nat := do
  let n ← natural? (match cs with | '+' :: rest => rest | _ => cs)
  if n < Nat.pow 2 64 then some n else none

def text (n : Nat) : String := String.ofList (digits n)

def integerDigits : Int → List Char
  | .ofNat n => digits n
  | .negSucc n => '-' :: digits (n + 1)

theorem isDigit_digit (n : Nat) : isDigit (digit n) = true := by
  have key : ∀ m : Fin 10, isDigit (digit m.val) = true := by decide
  have h := key ⟨n % 10, Nat.mod_lt n (by decide)⟩
  simpa [digit] using h

theorem toNat_digit (n : Nat) : (digit n).toNat - 48 = n % 10 := by
  have key : ∀ m : Fin 10, (digit m.val).toNat - 48 = m.val := by decide
  have h := key ⟨n % 10, Nat.mod_lt n (by decide)⟩
  simpa [digit] using h

theorem all_isDigit_digits (n : Nat) : (digits n).all isDigit = true := by
  induction n using Nat.strongRecOn with
  | _ n ih =>
    rw [digits]
    split
    · simp [isDigit_digit]
    · simp [ih (n / 10) (by omega), isDigit_digit]

theorem digits_ne_nil (n : Nat) : digits n ≠ [] := by
  rw [digits]; split <;> simp

theorem value_digits (n : Nat) : value (digits n) = n := by
  induction n using Nat.strongRecOn with
  | _ n ih =>
    rw [digits]
    split
    · simp only [value, List.foldl_cons, List.foldl_nil, toNat_digit]; omega
    · have h := ih (n / 10) (by omega)
      simp only [value] at h
      simp only [value, List.foldl_append, h, List.foldl_cons, List.foldl_nil, toNat_digit]
      omega

theorem natural?_digits (n : Nat) : natural? (digits n) = some n := by
  simp [natural?, digits_ne_nil, all_isDigit_digits, value_digits]

end MeshShell.Decimal
