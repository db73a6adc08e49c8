import MeshShell.Text.Hex
import MeshShell.Text.Scientific

/-! # JSON values as they are written

A value keeps the way its texts and numbers are spelled, since some readers
accept a spelling that others refuse. A quoted text is a list of pieces; the
characters it stands for, and the bytes it stands for, are views of it.
-/
namespace MeshShell

namespace Json

/-- One character, one short escape, or one `\u` escape with its code unit. -/
inductive Piece
  | plain (c : Char)
  | escaped (c : Char)
  | unit (n : Nat)
  deriving DecidableEq, Repr

abbrev Quoted := List Piece

/-- The characters of a short escape and the letters they are written with. -/
def shortEscapes : List (Char × Char) :=
  [('"', '"'), ('\\', '\\'), ('\x08', 'b'), ('\x0c', 'f'), ('\n', 'n'), ('\x0d', 'r'), ('\t', 't')]

def letterOf? (c : Char) : Option Char := shortEscapes.lookup c

def isLeading (n : Nat) : Bool := 0xD800 ≤ n && n ≤ 0xDBFF
def isTrailing (n : Nat) : Bool := 0xDC00 ≤ n && n ≤ 0xDFFF

def pairValue (lead trail : Nat) : Nat := 0x10000 + 0x400 * (lead - 0xD800) + (trail - 0xDC00)

namespace Quoted

/-- The written form: a short escape where there is one, `\u` for the other control
characters, and every other character as it is. -/
def ofChars (cs : List Char) : Quoted :=
  cs.map fun c =>
    if (letterOf? c).isSome then .escaped c
    else if c.toNat < 0x20 then .unit c.toNat
    else .plain c

def ofString (s : String) : Quoted := ofChars s.toList

/-- The text a quoted form stands for. A control character that is not escaped and a surrogate
without its partner stand for no text. -/
def chars? : Quoted → Option (List Char)
  | [] => some []
  | .plain c :: rest => if c.toNat < 0x20 then none else (c :: ·) <$> chars? rest
  | .escaped c :: rest => (c :: ·) <$> chars? rest
  | .unit n :: .unit m :: rest =>
    if isLeading n then
      if isTrailing m then (Char.ofNat (pairValue n m) :: ·) <$> chars? rest else none
    else if isTrailing n then none
    else (Char.ofNat n :: ·) <$> chars? (.unit m :: rest)
  | .unit n :: rest =>
    if isLeading n || isTrailing n then none else (Char.ofNat n :: ·) <$> chars? rest

def string? (q : Quoted) : Option String := String.ofList <$> chars? q

def charBytes (c : Char) : Bytes := Utf8.encode (String.singleton c)

/-- A lone surrogate as three bytes, by the scheme of UTF-8. -/
def surrogateBytes (n : Nat) : Bytes :=
  [UInt8.ofNat (0xE0 + n / 0x1000), UInt8.ofNat (0x80 + n / 0x40 % 0x40), UInt8.ofNat (0x80 + n % 0x40)]

/-- The bytes a quoted form stands for. Every form stands for some. -/
def bytes : Quoted → Bytes
  | [] => []
  | .plain c :: rest => charBytes c ++ bytes rest
  | .escaped c :: rest => charBytes c ++ bytes rest
  | .unit n :: .unit m :: rest =>
    if isLeading n && isTrailing m then charBytes (Char.ofNat (pairValue n m)) ++ bytes rest
    else if isLeading n || isTrailing n then surrogateBytes n ++ bytes (.unit m :: rest)
    else charBytes (Char.ofNat n) ++ bytes (.unit m :: rest)
  | .unit n :: rest =>
    (if isLeading n || isTrailing n then surrogateBytes n else charBytes (Char.ofNat n)) ++ bytes rest

/-- Every control character is escaped. -/
def controlFree (q : Quoted) : Bool :=
  q.all fun
    | .plain c => 0x20 ≤ c.toNat
    | _ => true

end Quoted

end Json

/-- A value with the spelling of its numbers and texts. -/
inductive Json
  | null
  | boolean (b : Bool)
  | number (lexeme : List Char)
  | text (q : Json.Quoted)
  | array (items : List Json)
  | object (members : List (Json.Quoted × Json))
  deriving Repr

namespace Json

def ofString (s : String) : Json := .text (Quoted.ofString s)

def ofInt (n : Int) : Json := .number (Decimal.integerDigits n)

def ofNat (n : Nat) : Json := ofInt n

/-- An object whose keys are written in the usual form. -/
def ofFields (fields : List (String × Json)) : Json :=
  .object (fields.map fun (k, v) => (Quoted.ofString k, v))

/-- A whole number in plain digits. A negative zero is none. -/
def integer? : Json → Option Int
  | .number ('-' :: ds) => do
    let n ← Decimal.natural? ds
    if n = 0 then none else some (-n)
  | .number ds => (fun n : Nat => (n : Int)) <$> Decimal.natural? ds
  | _ => none

def bool? : Json → Option Bool
  | .boolean b => some b
  | _ => none

def string? : Json → Option String
  | .text q => q.string?
  | _ => none

/-- A number that double precision can hold. -/
def finite (lexeme : List Char) : Bool :=
  !(Scientific.ofDigits (match lexeme with | '-' :: ds => ds | ds => ds)).overflows

mutual

/-- A value that may be passed over: no text holds a bare control character. -/
def skippable : Json → Bool
  | .text q => q.controlFree
  | .array items => skippableItems items
  | .object members => skippableMembers members
  | _ => true

def skippableItems : List Json → Bool
  | [] => true
  | v :: rest => skippable v && skippableItems rest

def skippableMembers : List (Quoted × Json) → Bool
  | [] => true
  | (k, v) :: rest => Quoted.controlFree k && skippable v && skippableMembers rest

end

mutual

/-- A value that can be held: every text stands for characters, every number is finite, and
containers are nested at most `depth` deep. -/
def plain : Nat → Json → Bool
  | _, .number lexeme => finite lexeme
  | _, .text q => q.chars?.isSome
  | 0, .array _ => false
  | 0, .object _ => false
  | depth + 1, .array items => plainItems depth items
  | depth + 1, .object members => plainMembers depth members
  | _, _ => true

def plainItems : Nat → List Json → Bool
  | _, [] => true
  | depth, v :: rest => plain depth v && plainItems depth rest

def plainMembers : Nat → List (Quoted × Json) → Bool
  | _, [] => true
  | depth, (k, v) :: rest => (Quoted.chars? k).isSome && plain depth v && plainMembers depth rest

end

/-- The fields of the given names in the order of their keys. A name may not come twice, the
other members may be anything that can be passed over, and every key must be a text. -/
def fields? (names : List String) : List (Quoted × Json) → Option (List (String × Json))
  | [] => some []
  | (k, v) :: rest => do
    let key ← Quoted.string? k
    let fields ← fields? names rest
    if names.contains key then
      if fields.any (·.1 == key) then none else some ((key, v) :: fields)
    else if v.skippable then some fields
    else none

end Json

end MeshShell
