import MeshShell.Toml.Reader

/-! # Writing a TOML document

A text is written in the first style that can hold it, plain ones first: double
quotes, single quotes, triple double quotes, triple single quotes. What fits
none of them is written with escapes.
-/
namespace MeshShell.Toml.Printer

/-- The quotes around a text. -/
inductive Style
  | basic
  | literal
  | longBasic
  | longLiteral
  deriving DecidableEq, Repr

/-- The greatest number of times that `c` stands in a row, after `now` of them and with `most` so
far. -/
def longestRun (c : Char) : Nat → Nat → List Char → Nat
  | now, most, [] => max now most
  | now, most, d :: rest =>
    if d = c then longestRun c (now + 1) most rest else longestRun c 0 (max now most) rest

def runOf (c : Char) (cs : List Char) : Nat := longestRun c 0 0 cs

/-- A control character that only an escape can stand for. Tabs and line feeds are none. -/
def needsEscape (c : Char) : Bool :=
  (c.toNat < 0x20 && c ≠ '\t' && c ≠ '\n') || c.toNat = 0x7F

/-- The style a text is written in. -/
def styleOf (cs : List Char) : Style :=
  let control := cs.any needsEscape
  let backslash := cs.contains '\\'
  let newline := cs.contains '\n'
  if !control && !backslash && !cs.contains '"' && !newline then .basic
  else if !control && !cs.contains '\'' && !newline then .literal
  else if !control && !backslash && runOf '"' cs ≤ 2 then .longBasic
  else if !control && runOf '\'' cs ≤ 2 then .longLiteral
  else if newline then .longBasic
  else .basic

/-- The letter of a short escape. -/
def letter? : Char → Option Char
  | '\x08' => some 'b'
  | '\t' => some 't'
  | '\n' => some 'n'
  | '\x0c' => some 'f'
  | '\x0d' => some 'r'
  | '"' => some '"'
  | '\\' => some '\\'
  | _ => none

/-- A character with an escape where double quotes ask for one. -/
def escape (c : Char) : List Char :=
  match letter? c with
  | some l => ['\\', l]
  | none => if needsEscape c then '\\' :: 'u' :: (Hex.digits 4 c.toNat).map Char.toUpper else [c]

/-- The inside of triple double quotes, where line feeds stay and of three quotes in a row the
third is escaped. The number counts the quotes that stand bare in a row. -/
def longEscape : Nat → List Char → List Char
  | _, [] => []
  | quotes, c :: rest =>
    if c = '"' then
      if quotes = 2 then '\\' :: '"' :: longEscape 0 rest else '"' :: longEscape (quotes + 1) rest
    else if c = '\n' then '\n' :: longEscape 0 rest
    else escape c ++ longEscape 0 rest

/-- A text of several lines starts on the line below its opening quotes. -/
def opening (cs : List Char) : List Char := if cs.contains '\n' then ['\n'] else []

def quoted (cs : List Char) : List Char :=
  match styleOf cs with
  | .basic => '"' :: cs.flatMap escape ++ ['"']
  | .literal => '\'' :: cs ++ ['\'']
  | .longBasic => ['"', '"', '"'] ++ opening cs ++ longEscape 0 cs ++ ['"', '"', '"']
  | .longLiteral => ['\'', '\'', '\''] ++ opening cs ++ cs ++ ['\'', '\'', '\'']

/-- A value of a setting. -/
inductive Setting
  | text (s : String)
  | natural (n : Nat)
  | boolean (b : Bool)
  deriving DecidableEq, Repr

def setting : Setting → List Char
  | .text s => quoted s.toList
  | .natural n => Decimal.digits n
  | .boolean b => if b then "true".toList else "false".toList

/-- A group of settings below one header. -/
structure Group where
  name : String
  isRow : Bool
  settings : List (String × Setting)
  deriving DecidableEq, Repr

def header (g : Group) : List Char :=
  if g.isRow then "[[".toList ++ g.name.toList ++ "]]\n".toList
  else "[".toList ++ g.name.toList ++ "]\n".toList

def line (name : String) (s : Setting) : List Char :=
  name.toList ++ " = ".toList ++ setting s ++ ['\n']

def group (g : Group) : List Char :=
  header g ++ g.settings.flatMap fun (name, s) => line name s

/-- Groups with an empty line between them. -/
def document : List Group → List Char
  | [] => []
  | [g] => group g
  | g :: h :: rest => group g ++ '\n' :: document (h :: rest)

end MeshShell.Toml.Printer
