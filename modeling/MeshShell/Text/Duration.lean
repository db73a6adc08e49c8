import MeshShell.Text.Decimal

/-! # Spans of time in words

Time is counted in milliseconds. A span is shown in its largest unit, seconds
or milliseconds, with the fraction that is not zero.
-/
namespace MeshShell.Duration

/-- Three digits of a fraction without the zeros at its end. -/
def fraction (ms : Nat) : List Char :=
  let ds := [Decimal.digit (ms / 100), Decimal.digit (ms / 10), Decimal.digit ms]
  (ds.reverse.dropWhile (· == '0')).reverse

def text (ms : Nat) : String :=
  if ms = 0 then "0ns"
  else if ms < 1000 then Decimal.text ms ++ "ms"
  else if ms % 1000 = 0 then Decimal.text (ms / 1000) ++ "s"
  else Decimal.text (ms / 1000) ++ "." ++ String.ofList (fraction (ms % 1000)) ++ "s"

end MeshShell.Duration
