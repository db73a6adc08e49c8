import MeshShell.Json.Token

/-! # The value of a JSON text

The tokens build the value from the inside out. Containers that are not yet
closed wait on a stack, so the nesting of a text has no limit.
-/
namespace MeshShell.Json

/-- An open container around the value that is being read. What it holds is kept backwards. -/
inductive Frame
  | items (before : List Json)
  | members (before : List (Quoted × Json)) (key : Quoted)
  deriving Repr

/-- What the tokens read so far ask for next. -/
inductive Stage
  /-- A value must come. -/
  | value (around : List Frame)
  /-- A value or the end of an array that was just opened. -/
  | opened (around : List Frame)
  /-- A comma or the end of an array. -/
  | afterItem (items : List Json) (around : List Frame)
  /-- A key, or the end of the object if it was just opened. -/
  | key (first : Bool) (members : List (Quoted × Json)) (around : List Frame)
  | colon (members : List (Quoted × Json)) (key : Quoted) (around : List Frame)
  /-- A comma or the end of an object. -/
  | afterMember (members : List (Quoted × Json)) (around : List Frame)
  /-- The value is complete. -/
  | done (v : Json)
  deriving Repr

namespace Stage

/-- A complete value goes into the innermost open container. -/
def place (v : Json) : List Frame → Stage
  | [] => .done v
  | .items before :: around => .afterItem (v :: before) around
  | .members before k :: around => .afterMember ((k, v) :: before) around

def ofLiteral : Option Bool → Json
  | none => .null
  | some b => .boolean b

/-- The first token of a value. -/
def start (around : List Frame) : Token → Option Stage
  | .openArray => some (.opened around)
  | .openObject => some (.key true [] around)
  | .quoted q => some (place (.text q) around)
  | .literal v => some (place (ofLiteral v) around)
  | .number lexeme => some (place (.number lexeme) around)
  | _ => none

def step : Stage → Token → Option Stage
  | .value around, t => start around t
  | .opened around, .closeArray => some (place (.array []) around)
  | .opened around, t => start (.items [] :: around) t
  | .afterItem items around, .comma => some (.value (.items items :: around))
  | .afterItem items around, .closeArray => some (place (.array items.reverse) around)
  | .key true members around, .closeObject => some (place (.object members.reverse) around)
  | .key _ members around, .quoted k => some (.colon members k around)
  | .colon members k around, .colon => some (.value (.members members k :: around))
  | .afterMember members around, .comma => some (.key false members around)
  | .afterMember members around, .closeObject => some (place (.object members.reverse) around)
  | _, _ => none

def value? : Stage → Option Json
  | .done v => some v
  | _ => none

end Stage

def ofTokens? (ts : List Token) : Option Json :=
  (ts.foldlM Stage.step (.value [])).bind Stage.value?

/-- The value of a whole text, with white space around it allowed. -/
def parse? (cs : List Char) : Option Json := (tokens? cs).bind ofTokens?

def ofText? (s : String) : Option Json := parse? s.toList

end MeshShell.Json
