import MeshShell.Json.Value

/-! # Typed fields of a JSON object

Readers for the values that a field may have. A whole number counts only if it
is in the range of its field, and nothing is cut off to make it fit.
-/
namespace MeshShell.Json

/-- A whole number from `low` to `high`. -/
def bounded? (low high : Int) (v : Json) : Option Int := do
  let n ← v.integer?
  if low ≤ n ∧ n ≤ high then some n else none

def byte? (v : Json) : Option UInt8 := (fun n => UInt8.ofNat n.toNat) <$> bounded? 0 255 v

def word16? (v : Json) : Option UInt16 := (fun n => UInt16.ofNat n.toNat) <$> bounded? 0 65535 v

def word32? (v : Json) : Option UInt32 := (fun n => UInt32.ofNat n.toNat) <$> bounded? 0 4294967295 v

def int32? (v : Json) : Option Int32 := Int32.ofInt <$> bounded? (-2147483648) 2147483647 v

def strings? : Json → Option (List String)
  | .array items => items.mapM string?
  | _ => none

/-- Bytes are an array of numbers or the bytes of a text. -/
def payload? : Json → Option Bytes
  | .array items => items.mapM byte?
  | .text q => some q.bytes
  | _ => none

/-- The field of a name, which must be there. -/
def field? {α : Type} (fields : List (String × Json)) (name : String) (read : Json → Option α) :
    Option α :=
  (fields.lookup name).bind read

end MeshShell.Json
