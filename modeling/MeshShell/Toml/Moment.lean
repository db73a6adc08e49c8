import MeshShell.Text.Decimal

/-! # Dates and times of TOML

A date, a time, or both with a `T` or a space between them, and then an
optional offset. The day must be one of its month.
-/
namespace MeshShell.Toml.Moment

/-- The value of two digits, if it is from `low` to `high`. -/
def inTwo (low high : Nat) (a b : Char) : Bool :=
  Decimal.isDigit a && Decimal.isDigit b && low ≤ Decimal.value [a, b] && Decimal.value [a, b] ≤ high

def isLeap (year : Nat) : Bool := year % 4 = 0 && (year % 100 ≠ 0 || year % 400 = 0)

def monthLength (year month : Nat) : Nat :=
  if month = 2 then if isLeap year then 29 else 28
  else if month = 4 ∨ month = 6 ∨ month = 9 ∨ month = 11 then 30
  else 31

/-- What follows a date. -/
def afterDate? : List Char → Option (List Char)
  | a :: b :: c :: d :: '-' :: e :: f :: '-' :: g :: h :: rest =>
    if [a, b, c, d].all Decimal.isDigit && inTwo 1 12 e f &&
        inTwo 1 (monthLength (Decimal.value [a, b, c, d]) (Decimal.value [e, f])) g h then some rest
    else none
  | _ => none

/-- What follows a time. A fraction of a second has at least one digit. -/
def afterTime? : List Char → Option (List Char)
  | a :: b :: ':' :: c :: d :: ':' :: e :: f :: rest =>
    if inTwo 0 23 a b && inTwo 0 59 c d && inTwo 0 60 e f then
      match rest with
      | '.' :: g :: rest => if Decimal.isDigit g then some (rest.dropWhile Decimal.isDigit) else none
      | _ => some rest
    else none
  | _ => none

def isOffset : List Char → Bool
  | [] => true
  | [z] => z = 'Z' || z = 'z'
  | [s, a, b, ':', c, d] => (s = '+' || s = '-') && inTwo 0 23 a b && inTwo 0 59 c d
  | _ => false

/-- A time with an optional offset, as it may follow a date. -/
def isTimed (cs : List Char) : Bool :=
  match afterTime? cs with
  | some rest => isOffset rest
  | none => false

def isDate (cs : List Char) : Bool := afterDate? cs == some []

def isMoment (cs : List Char) : Bool :=
  match afterDate? cs with
  | some [] => true
  | some (t :: rest) => (t = 'T' || t = 't') && isTimed rest
  | none => afterTime? cs == some []

end MeshShell.Toml.Moment
