import MeshShell.Text.Decimal

/-! # Decimal fractions and the range of double precision

A number in scientific form is a whole number times a power of ten. The one
question asked here is whether rounding to double precision leaves the finite
range.
-/
namespace MeshShell

structure Scientific where
  significand : Nat
  exponent : Int
  deriving DecidableEq, Repr

namespace Scientific

/-- Half a unit above the greatest finite double. From here on rounding gives infinity. -/
def limit : Nat := Nat.pow 2 1024 - Nat.pow 2 970

def overflows (x : Scientific) : Bool :=
  if x.significand = 0 then false
  else
    let length := (Decimal.digits x.significand).length
    if 400 < length + x.exponent then true
    else if length + x.exponent ≤ 0 then false
    else
      match x.exponent with
      | .ofNat e => limit ≤ x.significand * Nat.pow 10 e
      | .negSucc e => limit * Nat.pow 10 (e + 1) ≤ x.significand

/-- Whole digits, digits behind the point, and a signed exponent without its mark. -/
def ofParts (whole fraction : List Char) (negative : Bool) (power : List Char) : Scientific :=
  let e : Int := Decimal.value power
  { significand := Decimal.value (whole ++ fraction)
    exponent := (if negative then -e else e) - fraction.length }

/-- Splits digits, an optional point with digits, and an optional exponent. Nothing is checked. -/
def ofDigits (cs : List Char) : Scientific :=
  let (whole, cs) := cs.span Decimal.isDigit
  let (fraction, cs) := match cs with
    | '.' :: rest => rest.span Decimal.isDigit
    | _ => ([], cs)
  match cs.drop 1 with
  | '-' :: power => ofParts whole fraction true power
  | '+' :: power => ofParts whole fraction false power
  | power => ofParts whole fraction false power

end Scientific

end MeshShell
