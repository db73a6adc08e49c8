import MeshShell.Toml.Moment
import MeshShell.Toml.Number
import MeshShell.Toml.Quoted
import MeshShell.Toml.Table

/-! # Reading a TOML document

A document is a list of statements, each on lines of its own: headers and
assignments. Keys have fewer than eighty parts, and values are nested in fewer
than eighty arrays and braces.
-/
namespace MeshShell

namespace Toml

/-- One step of a document. -/
inductive Statement
  | header (path : List String)
  | rowHeader (path : List String)
  | assign (key : List String) (value : Toml)
  deriving Repr

namespace Reader

/-- A parser takes a first part of the text and leaves the rest. -/
abbrev Parser (α : Type) := List Char → Option (α × List Char)

/-- Parts of a key and nested containers are limited to this many. -/
def limit : Nat := 79

def skipGaps (cs : List Char) : List Char := cs.dropWhile Quoted.isGap

/-- White space, line ends and comments. The flag tells that a comment is open. -/
def skipLines : Bool → List Char → List Char
  | _, [] => []
  | comment, c :: rest =>
    if comment && Quoted.isPlain c then skipLines true rest
    else if Quoted.isGap c || c = '\n' then skipLines false rest
    else if c = '#' then skipLines true rest
    else
      match c, rest with
      | '\x0d', '\n' :: rest => skipLines false rest
      | _, _ => c :: rest

def lineEnd? : List Char → Option (List Char)
  | [] => some []
  | '\n' :: rest => some rest
  | '\x0d' :: '\n' :: rest => some rest
  | _ => none

/-- The end of a statement: blanks, a comment, and the end of the line. -/
def trailing? (cs : List Char) : Option (List Char) :=
  match skipGaps cs with
  | '#' :: rest => lineEnd? (rest.dropWhile Quoted.isPlain)
  | rest => lineEnd? rest

def isBare (c : Char) : Bool := c.isAlphanum || c = '_' || c = '-'

def part : Parser String
  | '"' :: rest => (fun (s, rest) => (String.ofList s, rest)) <$> Quoted.basic .plain rest
  | '\'' :: rest => (fun (s, rest) => (String.ofList s, rest)) <$> Quoted.literal rest
  | cs =>
    let bare := cs.takeWhile isBare
    if bare.isEmpty then none else some (String.ofList bare, cs.dropWhile isBare)

/-- At most so many parts with points between them, and blanks around each. -/
def key : Nat → Parser (List String)
  | 0, _ => none
  | n + 1, cs => do
    let (first, rest) ← part (skipGaps cs)
    match skipGaps rest with
    | '.' :: rest => do
      let (more, rest) ← key n rest
      return (first :: more, rest)
    | rest => return ([first], rest)

/-- A key, an equals sign and a value. -/
def pair (value : Parser Toml) : Parser (List String × Toml) := fun cs => do
  let (path, rest) ← key limit cs
  match rest with
  | '=' :: rest => do
    let (v, rest) ← value (skipGaps rest)
    return ((path, v), rest)
  | _ => none

/-- The items of an array up to its closing bracket. A comma may stand behind the last. -/
def items (value : Parser Toml) : Nat → Parser (List Toml)
  | 0, _ => none
  | n + 1, cs =>
    match skipLines false cs with
    | ']' :: rest => some ([], rest)
    | cs => do
      let (v, rest) ← value cs
      match skipLines false rest with
      | ',' :: rest => do
        let (vs, rest) ← items value n rest
        return (v :: vs, rest)
      | ']' :: rest => return ([v], rest)
      | _ => none

/-- One or more pairs up to the closing brace, all on one line. -/
def pairs (value : Parser Toml) : Nat → Parser (List (List String × Toml))
  | 0, _ => none
  | n + 1, cs => do
    let (p, rest) ← pair value cs
    match skipGaps rest with
    | ',' :: rest => do
      let (ps, rest) ← pairs value n rest
      return (p :: ps, rest)
    | '\x7d' :: rest => return ([p], rest)
    | _ => none

def braced (value : Parser Toml) : Parser (List (List String × Toml)) := fun cs =>
  match skipGaps cs with
  | '\x7d' :: rest => some ([], rest)
  | _ => pairs value cs.length cs

def ofPairs? (ps : List (List String × Toml)) : Option Toml :=
  .table .inline <$> ps.foldlM (fun es (path, v) => Entries.assign v true path es) []

def isWordChar (c : Char) : Bool :=
  c.isAlphanum || c = '_' || c = '-' || c = '+' || c = '.' || c = ':'

def ofWord? (w : List Char) : Option Toml :=
  if w = "true".toList then some (.boolean true)
  else if w = "false".toList then some (.boolean false)
  else if Moment.isMoment w then some (.moment (String.ofList w))
  else
    match Number.integer? w with
    | some n => some (.integer n)
    | none => if Number.isFloat w then some (.float (String.ofList w)) else none

/-- A time behind a date and a blank. -/
def spacedTime? : List Char → Option (List Char × List Char)
  | ' ' :: cs =>
    let time := cs.takeWhile isWordChar
    if Moment.isTimed time then some (' ' :: time, cs.dropWhile isWordChar) else none
  | _ => none

/-- A value that is neither quoted nor a container. -/
def word : Parser Toml := fun cs =>
  let w := cs.takeWhile isWordChar
  let rest := cs.dropWhile isWordChar
  match if Moment.isDate w then spacedTime? rest else none with
  | some (time, rest) => some (.moment (String.ofList (w ++ time)), rest)
  | none => (·, rest) <$> ofWord? w

/-- A value inside of at most so many further containers. -/
def value : Nat → Parser Toml
  | n, cs =>
    match cs with
    | '"' :: _ => (fun (s, rest) => (.text (String.ofList s), rest)) <$> Quoted.read cs
    | '\'' :: _ => (fun (s, rest) => (.text (String.ofList s), rest)) <$> Quoted.read cs
    | '[' :: rest =>
      match n with
      | 0 => none
      | n + 1 => do
        let (vs, rest) ← items (value n) cs.length rest
        return (.array vs, rest)
    | '\x7b' :: rest =>
      match n with
      | 0 => none
      | n + 1 => do
        let (ps, rest) ← braced (value n) rest
        return (← ofPairs? ps, rest)
    | _ => word cs

def closed? (mark : List Char) (cs : List Char) : Option (List Char) :=
  if mark.isPrefixOf cs then trailing? (cs.drop mark.length) else none

def statement : Parser Statement
  | '[' :: '[' :: cs => do
    let (path, rest) ← key limit cs
    return (.rowHeader path, ← closed? [']', ']'] rest)
  | '[' :: cs => do
    let (path, rest) ← key limit cs
    return (.header path, ← closed? [']'] rest)
  | cs => do
    let ((path, v), rest) ← pair (value limit) cs
    return (.assign path v, ← trailing? rest)

/-- The statements of a text of at most so many lines. -/
def statements : Nat → List Char → Option (List Statement)
  | 0, _ => none
  | n + 1, cs =>
    match skipGaps cs with
    | [] => some []
    | '\n' :: rest => statements n rest
    | '\x0d' :: '\n' :: rest => statements n rest
    | '#' :: rest => do statements n (← lineEnd? (rest.dropWhile Quoted.isPlain))
    | cs => do
      let (s, rest) ← statement cs
      return s :: (← statements n rest)

/-- A mark of the byte order at the start does not count. -/
def dropMark : List Char → List Char
  | '\uFEFF' :: cs => cs
  | cs => cs

def document (cs : List Char) : Option (List Statement) :=
  let cs := dropMark cs
  statements (cs.length + 1) cs

end Reader

/-- A document that is being built: its tables, and the path of the last header. -/
structure Building where
  root : Entries
  cursor : List String

namespace Building

def empty : Building := ⟨[], []⟩

/-- The change at the last part of a path, below the tables of the other parts. -/
def atLast (edit : String → Entries → Option Entries) (path : List String) (es : Entries) :
    Option Entries :=
  match path.getLast? with
  | none => none
  | some key => Entries.within (edit key) path.dropLast es

def add (b : Building) : Statement → Option Building
  | .header path => do return ⟨← atLast Entries.openTable path b.root, path⟩
  | .rowHeader path => do return ⟨← atLast Entries.openRow path b.root, path⟩
  | .assign key v => do
    return { b with root := ← Entries.within (Entries.assign v true key) b.cursor b.root }

end Building

def ofStatements? (ss : List Statement) : Option Entries :=
  Building.root <$> ss.foldlM Building.add .empty

/-- The tables of a whole document. -/
def parse? (s : String) : Option Toml := do
  let ss ← Reader.document s.toList
  return .table .header (← ofStatements? ss)

end Toml

end MeshShell
