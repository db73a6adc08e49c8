import MeshShell.Text.Utf8

/-! # TOML values

A table remembers how it came to be, since that decides whether later lines may
add to it. Floats and moments are kept as they are written: no setting has
their type.
-/
namespace MeshShell

/-- How a table was introduced: by its own header, by the header of a table inside it, by a
dotted key, or in braces as a value. -/
inductive TableForm
  | header
  | implied
  | dotted
  | inline
  deriving DecidableEq, Repr

inductive Toml
  | text (s : String)
  | integer (n : Int)
  | float (lexeme : String)
  | boolean (b : Bool)
  | moment (lexeme : String)
  | array (items : List Toml)
  | table (form : TableForm) (entries : List (String × Toml))
  /-- An array of tables, one for each header in double brackets. -/
  | tables (rows : List (List (String × Toml)))
  deriving Repr

namespace Toml

abbrev Entries := List (String × Toml)

/-- A group of settings: each is found by its name or by its place. -/
abbrev Section := String → Nat → Option Toml

def section? : Toml → Option Section
  | .table _ entries => some fun name _ => entries.lookup name
  | .array items => some fun _ place => items[place]?
  | .tables rows => some fun _ place => (rows[place]?).map (.table .header)
  | .moment _ => some fun _ _ => none
  | _ => none

def string? : Toml → Option String
  | .text s => some s
  | _ => none

def bool? : Toml → Option Bool
  | .boolean b => some b
  | _ => none

/-- A whole number from zero to `high`. -/
def natural? (high : Nat) : Toml → Option Nat
  | .integer n => if 0 ≤ n ∧ n ≤ high then some n.toNat else none
  | _ => none

def word16? (v : Toml) : Option UInt16 := UInt16.ofNat <$> natural? 65535 v

/-- A container that holds nothing. -/
def isVoid : Toml → Bool
  | .array items => items.isEmpty
  | .table _ entries => entries.isEmpty
  | .tables rows => rows.isEmpty
  | _ => false

/-- A choice is written as its name, or as a table whose one key is the name and holds nothing. -/
def choice? : Toml → Option String
  | .text s => some s
  | .table _ [(name, v)] => if v.isVoid then some name else none
  | _ => none

/-- The rows of an array, or of an array of tables. -/
def rows? : Toml → Option (List Toml)
  | .array items => some items
  | .tables rows => some (rows.map (.table .header))
  | _ => none

end Toml

end MeshShell
