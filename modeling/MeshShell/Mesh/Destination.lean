import MeshShell.Text.Blank
import MeshShell.Text.Decimal
import MeshShell.Text.Hex

/-! # Destination hashes

A destination is named by sixteen bytes. Its text is 32 hexadecimal digits,
read in either case and with white space around them, and written small.
-/
namespace MeshShell

structure Destination where
  bytes : Bytes
  length_eq : bytes.length = 16
  deriving DecidableEq, Repr

inductive HashError
  | invalidHex (text : String)
  | wrongLength (count : Nat)
  deriving DecidableEq, Repr

def HashError.message : HashError → String
  | .invalidHex text => "destination hash is not valid hex: " ++ text
  | .wrongLength count => "destination hash must be 16 bytes, got " ++ Decimal.text count

namespace Destination

def parse (s : String) : Except HashError Destination :=
  match Hex.decode? (Text.trim s.toList) with
  | none => .error (.invalidHex s)
  | some bytes =>
    if h : bytes.length = 16 then .ok ⟨bytes, h⟩ else .error (.wrongLength bytes.length)

def text (d : Destination) : String := Hex.text d.bytes

/-- The first four bytes. -/
def short (d : Destination) : String := Hex.text (d.bytes.take 4)

def debug (d : Destination) : String := "DestinationHash(" ++ d.text ++ ")"

/-- Byte by byte, the first difference decides. -/
instance : LT Destination := ⟨fun a b => a.bytes < b.bytes⟩

instance (a b : Destination) : Decidable (a < b) :=
  inferInstanceAs (Decidable (a.bytes < b.bytes))

def sort (ds : List Destination) : List Destination := ds.mergeSort fun a b => !decide (b < a)

end Destination

end MeshShell
