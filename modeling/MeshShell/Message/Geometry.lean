import MeshShell.Json.Printer
import MeshShell.Json.Reader
import MeshShell.Message.Field

/-! # Terminal sizes

Rows and columns of a terminal in character cells. In JSON the size is an
object with both members or an array of the two in this order.
-/
namespace MeshShell

structure Geometry where
  rows : UInt16
  cols : UInt16
  deriving DecidableEq, Repr

namespace Geometry

def standard : Geometry := ⟨24, 80⟩

def toJson (g : Geometry) : Json :=
  .ofFields [("rows", .ofNat g.rows.toNat), ("cols", .ofNat g.cols.toNat)]

def ofJson? : Json → Option Geometry
  | .array [rows, cols] => do return ⟨← Json.word16? rows, ← Json.word16? cols⟩
  | .object members => do
    let fields ← Json.fields? ["rows", "cols"] members
    return ⟨← Json.field? fields "rows" Json.word16?, ← Json.field? fields "cols" Json.word16?⟩
  | _ => none

end Geometry

end MeshShell
