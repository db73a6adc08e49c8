import MeshShell.Json.Value

/-! # Marks and words of a JSON text

The text is cut into marks, quoted texts and words, one character at a time. A
word is a run of characters that are neither a mark, a quote nor white space;
it counts if it is a literal or a number.
-/
namespace MeshShell.Json

inductive Token
  | openArray
  | closeArray
  | openObject
  | closeObject
  | comma
  | colon
  | quoted (q : Quoted)
  | literal (v : Option Bool)
  | number (lexeme : List Char)
  deriving DecidableEq, Repr

def isSpace (c : Char) : Bool := c == ' ' || c == '\t' || c == '\n' || c == '\x0d'

def mark? : Char → Option Token
  | '[' => some .openArray
  | ']' => some .closeArray
  | '\x7b' => some .openObject
  | '\x7d' => some .closeObject
  | ',' => some .comma
  | ':' => some .colon
  | _ => none

def digitsOnly (cs : List Char) : Bool := !cs.isEmpty && cs.all Decimal.isDigit

/-- An exponent behind its mark, with an optional sign. -/
def isPower : List Char → Bool
  | '-' :: ds => digitsOnly ds
  | '+' :: ds => digitsOnly ds
  | ds => digitsOnly ds

/-- What may stand behind the whole digits or behind the fraction. -/
def isExponent : List Char → Bool
  | [] => true
  | c :: cs => (c == 'e' || c == 'E') && isPower cs

def isFraction : List Char → Bool
  | '.' :: cs => digitsOnly (cs.takeWhile Decimal.isDigit) && isExponent (cs.dropWhile Decimal.isDigit)
  | cs => isExponent cs

def isUnsigned : List Char → Bool
  | '0' :: cs => isFraction cs
  | cs => digitsOnly (cs.takeWhile Decimal.isDigit) && isFraction (cs.dropWhile Decimal.isDigit)

/-- The grammar of numbers: no leading zero, and a digit on both sides of the point. -/
def isNumber : List Char → Bool
  | '-' :: cs => isUnsigned cs
  | cs => isUnsigned cs

def Token.ofWord? (w : List Char) : Option Token :=
  if w = "null".toList then some (.literal none)
  else if w = "true".toList then some (.literal (some true))
  else if w = "false".toList then some (.literal (some false))
  else if isNumber w then some (.number w)
  else none

/-- Where the cutting stands. What was read of a word or a text is kept backwards. -/
inductive Cut
  | between
  | word (w : List Char)
  | quoted (q : Quoted)
  | escape (q : Quoted)
  | unit (q : Quoted) (count value : Nat)
  deriving DecidableEq, Repr

/-- A character outside of a quoted text: the tokens that it completes, and where it leads. -/
def Cut.outside (finished : List Token) (c : Char) : List Token × Cut :=
  if isSpace c then (finished, .between)
  else if c = '"' then (finished, .quoted [])
  else
    match mark? c with
    | some t => (finished ++ [t], .between)
    | none => (finished, .word [c])

def escaped? (c : Char) : Option Char :=
  if c = '/' then some '/' else (shortEscapes.find? (·.2 == c)).map (·.1)

def Cut.step : Cut → Char → Option (List Token × Cut)
  | .between, c => some (Cut.outside [] c)
  | .word w, c =>
    if isSpace c || c == '"' || (mark? c).isSome then do
      let t ← Token.ofWord? w.reverse
      return Cut.outside [t] c
    else some ([], .word (c :: w))
  | .quoted q, c =>
    if c = '"' then some ([.quoted q.reverse], .between)
    else if c = '\\' then some ([], .escape q)
    else some ([], .quoted (.plain c :: q))
  | .escape q, c =>
    if c = 'u' then some ([], .unit q 0 0)
    else (fun e => ([], .quoted (.escaped e :: q))) <$> escaped? c
  | .unit q count value, c => do
    let d ← Hex.value? c
    let value := 16 * value + d
    return if count = 3 then ([], .quoted (.unit value :: q)) else ([], .unit q (count + 1) value)

/-- The tokens of a text from a place in it on. -/
def tokensFrom? : Cut → List Char → Option (List Token)
  | .between, [] => some []
  | .word w, [] => (fun t => [t]) <$> Token.ofWord? w.reverse
  | _, [] => none
  | cut, c :: cs => do
    let (found, cut) ← cut.step c
    let rest ← tokensFrom? cut cs
    return found ++ rest

def tokens? (cs : List Char) : Option (List Token) := tokensFrom? .between cs

end MeshShell.Json
