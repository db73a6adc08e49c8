import MeshShell.Toml.Value

/-! # Adding to the tables of a TOML document

A header opens a table once, and a header in double brackets appends a row. On
the way down a header passes through every table that is not written in braces
and through the last row of an array of tables. A dotted key makes the tables
it goes through, and it does not enter one that has a header of its own.
-/
namespace MeshShell.Toml.Entries

/-- Changes the value of a key, or adds the key at the end. -/
def put (key : String) (v : Toml) : Entries → Entries
  | [] => [(key, v)]
  | (k, w) :: rest => if k = key then (k, v) :: rest else (k, w) :: put key v rest

/-- Changes the last row. -/
def onLast (edit : Entries → Option Entries) : List Entries → Option (List Entries)
  | [] => none
  | [row] => do return [← edit row]
  | row :: next :: rest => do return row :: (← onLast edit (next :: rest))

/-- Changes the table at the path of a header. -/
def within (edit : Entries → Option Entries) : List String → Entries → Option Entries
  | [], es => edit es
  | key :: path, es =>
    match es.lookup key with
    | none => do return put key (.table .implied (← within edit path [])) es
    | some (.table .inline _) => none
    | some (.table form sub) => do return put key (.table form (← within edit path sub)) es
    | some (.tables rows) => do return put key (.tables (← onLast (within edit path) rows)) es
    | some _ => none

/-- The table of a header, which must be new or only implied so far. -/
def openTable (key : String) (es : Entries) : Option Entries :=
  match es.lookup key with
  | none => some (put key (.table .header []) es)
  | some (.table .implied sub) => some (put key (.table .header sub) es)
  | some _ => none

def openRow (key : String) (es : Entries) : Option Entries :=
  match es.lookup key with
  | none => some (put key (.tables [[]]) es)
  | some (.tables rows) => some (put key (.tables (rows ++ [[]])) es)
  | some _ => none

/-- Gives a value to a dotted key. `takes` tells whether the table here takes values: behind the
first part of the key only a table that dotted keys have made does. -/
def assign (v : Toml) : Bool → List String → Entries → Option Entries
  | _, [], _ => none
  | takes, [key], es =>
    if takes && (es.lookup key).isNone then some (put key v es) else none
  | _, key :: next :: path, es =>
    match es.lookup key with
    | none => do return put key (.table .dotted (← assign v true (next :: path) [])) es
    | some (.table .dotted sub) => do
      return put key (.table .dotted (← assign v true (next :: path) sub)) es
    | some (.table .implied sub) => do
      return put key (.table .implied (← assign v false (next :: path) sub)) es
    | some (.tables rows) => do
      return put key (.tables (← onLast (assign v false (next :: path)) rows)) es
    | some _ => none

end MeshShell.Toml.Entries
