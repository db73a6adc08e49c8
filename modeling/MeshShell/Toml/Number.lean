import MeshShell.Text.Hex
import MeshShell.Text.Scientific
import MeshShell.Toml.Value

/-! # Numbers of TOML

Whole numbers of 64 bits in four bases, and floats. An underscore may stand
between two digits. A decimal number has no leading zero.
-/
namespace MeshShell.Toml.Number

/-- The digits of a run without the underscores between them. -/
def ungroup? (isDigit : Char → Bool) : List Char → Option (List Char)
  | [] => none
  | [c] => if isDigit c then some [c] else none
  | c :: '_' :: rest => if isDigit c then (c :: ·) <$> ungroup? isDigit rest else none
  | c :: d :: rest => if isDigit c then (c :: ·) <$> ungroup? isDigit (d :: rest) else none

/-- The whole part of a number: digits without a leading zero. -/
def whole? (cs : List Char) : Option (List Char) := do
  let ds ← ungroup? Decimal.isDigit cs
  if 1 < ds.length ∧ ds.head? = some '0' then none else some ds

/-- A sign and what follows it. -/
def signed : List Char → Bool × List Char
  | '-' :: rest => (true, rest)
  | '+' :: rest => (false, rest)
  | rest => (false, rest)

def inRange (n : Int) : Bool := -Int.pow 2 63 ≤ n && n < Int.pow 2 63

def valueIn (base : Nat) (ds : List Char) : Nat :=
  ds.foldl (fun n c => base * n + (Hex.value? c).getD 0) 0

def isDigitOf (base : Nat) (c : Char) : Bool :=
  match Hex.value? c with
  | some d => d < base
  | none => false

/-- A number behind the mark of its base. -/
def based? (base : Nat) (cs : List Char) : Option Int := do
  let n : Int := valueIn base (← ungroup? (isDigitOf base) cs)
  if inRange n then some n else none

def integer? : List Char → Option Int
  | '0' :: 'x' :: rest => based? 16 rest
  | '0' :: 'o' :: rest => based? 8 rest
  | '0' :: 'b' :: rest => based? 2 rest
  | cs => do
    let (negative, rest) := signed cs
    let n : Int := Decimal.value (← whole? rest)
    let n := if negative then -n else n
    if inRange n then some n else none

def isPowerMark (c : Char) : Bool := c = 'e' || c = 'E'

/-- The sign and the digits of an exponent behind its mark. -/
def power? (cs : List Char) : Option (Bool × List Char) := do
  let (negative, rest) := signed cs
  return (negative, ← ungroup? Decimal.isDigit rest)

/-- The digits behind the point, and the exponent. One of the two must be there. -/
def tail? : List Char → Option (List Char × Bool × List Char)
  | '.' :: rest => do
    let fraction ← ungroup? Decimal.isDigit (rest.takeWhile (!isPowerMark ·))
    match rest.dropWhile (!isPowerMark ·) with
    | [] => return (fraction, false, [])
    | _ :: rest => return (fraction, ← power? rest)
  | c :: rest => if isPowerMark c then do return ([], ← power? rest) else none
  | [] => none

def isSpecial (cs : List Char) : Bool := cs = "inf".toList || cs = "nan".toList

/-- A float that is not beyond the greatest one. Below the least one there is no such limit. -/
def isFloat (cs : List Char) : Bool :=
  let (negative, rest) := signed cs
  if isSpecial rest then true
  else
    let inWhole := fun c => c ≠ '.' && !isPowerMark c
    match whole? (rest.takeWhile inWhole), tail? (rest.dropWhile inWhole) with
    | some whole, some (fraction, down, power) =>
      negative || !(Scientific.ofParts whole fraction down power).overflows
    | _, _ => false

end MeshShell.Toml.Number
