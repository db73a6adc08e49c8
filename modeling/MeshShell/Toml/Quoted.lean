import MeshShell.Text.Hex

/-! # Quoted texts of TOML

The four ways to quote a text: double or single quotes, once or three times.
Each reader starts behind the opening quotes and gives the text and what
follows the closing quotes. In triple quotes a line ends with LF in the text
whether it is written with LF or with CR LF, and a run of up to two quotes
before the closing ones belongs to the text.
-/
namespace MeshShell.Toml.Quoted

/-- What was read, and what is left. -/
abbrev Read := Option (List Char × List Char)

def before (cs : List Char) : Read → Read
  | some (read, rest) => some (cs ++ read, rest)
  | none => none

/-- A character that may stand for itself in a quoted text, quotes and backslash apart. -/
def isPlain (c : Char) : Bool := c = '\t' || (0x20 ≤ c.toNat && c.toNat ≠ 0x7F)

def escaped? : Char → Option Char
  | 'b' => some '\x08'
  | 't' => some '\t'
  | 'n' => some '\n'
  | 'f' => some '\x0c'
  | 'r' => some '\x0d'
  | '"' => some '"'
  | '\\' => some '\\'
  | _ => none

/-- The character of a code point, surrogates apart. -/
def scalar? (n : Nat) : Option Char := if n.isValidChar then some (Char.ofNat n) else none

/-- The number of digits of a numeric escape. -/
def unitWidth? (c : Char) : Option Nat := if c = 'u' then some 4 else if c = 'U' then some 8 else none

/-- Where the reading of a text in double quotes stands. -/
inductive Place
  | plain
  | escape
  /-- In a numeric escape with digits still to come. -/
  | unit (left value : Nat)
  deriving DecidableEq, Repr

/-- The text in double quotes. -/
def basic : Place → List Char → Read
  | _, [] => none
  | .plain, c :: rest =>
    if c = '"' then some ([], rest)
    else if c = '\\' then basic .escape rest
    else if isPlain c then before [c] (basic .plain rest)
    else none
  | .escape, c :: rest =>
    match unitWidth? c, escaped? c with
    | some width, _ => basic (.unit width 0) rest
    | none, some e => before [e] (basic .plain rest)
    | none, none => none
  | .unit left value, c :: rest =>
    match Hex.value? c with
    | none => none
    | some d =>
      if 1 < left then basic (.unit (left - 1) (16 * value + d)) rest
      else
        match scalar? (16 * value + d) with
        | some e => before [e] (basic .plain rest)
        | none => none

/-- The text in single quotes. -/
def literal : List Char → Read
  | [] => none
  | c :: rest =>
    if c = '\'' then some ([], rest)
    else if isPlain c then before [c] (literal rest)
    else none

/-- Where the reading of a text in triple quotes stands. -/
inductive LongPlace
  /-- Behind a run of quotes that may turn out to be the closing ones. -/
  | plain (quotes : Nat)
  /-- Behind a CR, which an LF has to follow. -/
  | carriage
  | escape
  | unit (left value : Nat)
  /-- Behind a backslash and blanks: the line has to end. -/
  | lineEnd
  /-- Behind a backslash at the end of a line: white space does not count. -/
  | skip
  /-- Behind a CR in either of these two. -/
  | skipReturn
  deriving DecidableEq, Repr

def isGap (c : Char) : Bool := c = ' ' || c = '\t'

/-- The text in triple double quotes. -/
def longBasic : LongPlace → List Char → Read
  | .plain quotes, [] => if 3 ≤ quotes then some (List.replicate (quotes - 3) '"', []) else none
  | _, [] => none
  | .plain quotes, c :: rest =>
    if 5 ≤ quotes ∨ (3 ≤ quotes ∧ c ≠ '"') then some (List.replicate (quotes - 3) '"', c :: rest)
    else if c = '"' then longBasic (.plain (quotes + 1)) rest
    else before (List.replicate quotes '"')
      (if c = '\\' then longBasic .escape rest
       else if c = '\n' then before ['\n'] (longBasic (.plain 0) rest)
       else if c = '\x0d' then longBasic .carriage rest
       else if isPlain c then before [c] (longBasic (.plain 0) rest)
       else none)
  | .carriage, c :: rest => if c = '\n' then before ['\n'] (longBasic (.plain 0) rest) else none
  | .escape, c :: rest =>
    if isGap c then longBasic .lineEnd rest
    else if c = '\n' then longBasic .skip rest
    else if c = '\x0d' then longBasic .skipReturn rest
    else
      match unitWidth? c, escaped? c with
      | some width, _ => longBasic (.unit width 0) rest
      | none, some e => before [e] (longBasic (.plain 0) rest)
      | none, none => none
  | .unit left value, c :: rest =>
    match Hex.value? c with
    | none => none
    | some d =>
      if 1 < left then longBasic (.unit (left - 1) (16 * value + d)) rest
      else
        match scalar? (16 * value + d) with
        | some e => before [e] (longBasic (.plain 0) rest)
        | none => none
  | .lineEnd, c :: rest =>
    if isGap c then longBasic .lineEnd rest
    else if c = '\n' then longBasic .skip rest
    else if c = '\x0d' then longBasic .skipReturn rest
    else none
  | .skip, c :: rest =>
    if isGap c || c = '\n' then longBasic .skip rest
    else if c = '\x0d' then longBasic .skipReturn rest
    else if c = '"' then longBasic (.plain 1) rest
    else if c = '\\' then longBasic .escape rest
    else if isPlain c then before [c] (longBasic (.plain 0) rest)
    else none
  | .skipReturn, c :: rest => if c = '\n' then longBasic .skip rest else none

/-- The text in triple single quotes, behind a run of quotes. -/
def longLiteral : Nat → List Char → Read
  | quotes, [] => if 3 ≤ quotes then some (List.replicate (quotes - 3) '\'', []) else none
  | quotes, [c] =>
    if 5 ≤ quotes ∨ (3 ≤ quotes ∧ c ≠ '\'') then some (List.replicate (quotes - 3) '\'', [c])
    else if c = '\'' then longLiteral (quotes + 1) []
    else none
  | quotes, c :: d :: rest =>
    if 5 ≤ quotes ∨ (3 ≤ quotes ∧ c ≠ '\'') then some (List.replicate (quotes - 3) '\'', c :: d :: rest)
    else if c = '\'' then longLiteral (quotes + 1) (d :: rest)
    else if c = '\x0d' ∧ d = '\n' then
      before (List.replicate quotes '\'' ++ ['\n']) (longLiteral 0 rest)
    else if isPlain c || c = '\n' then
      before (List.replicate quotes '\'' ++ [c]) (longLiteral 0 (d :: rest))
    else none

/-- A line end right behind opening triple quotes is not part of the text. -/
def dropFirstLine : List Char → List Char
  | '\n' :: rest => rest
  | '\x0d' :: '\n' :: rest => rest
  | rest => rest

/-- A quoted text of any kind, from its first quote on. -/
def read : List Char → Read
  | '"' :: '"' :: '"' :: rest => longBasic (.plain 0) (dropFirstLine rest)
  | '"' :: rest => basic .plain rest
  | '\'' :: '\'' :: '\'' :: rest => longLiteral 0 (dropFirstLine rest)
  | '\'' :: rest => literal rest
  | _ => none

end MeshShell.Toml.Quoted
