import MeshShell.Json.Value

/-! # Written forms of a JSON value

The compact form has no white space at all. The laid out form puts each item
and each member on a line of its own, two places further in than its container.
-/
namespace MeshShell.Json

/-- The letter of a short escape, or the character itself where it has none. -/
def Piece.render : Piece → List Char
  | .plain c => [c]
  | .escaped c => ['\\', (letterOf? c).getD c]
  | .unit n => '\\' :: 'u' :: Hex.digits 4 n

def Quoted.render (q : Quoted) : List Char := '"' :: q.flatMap Piece.render ++ ['"']

def literal (b : Bool) : List Char := if b then "true".toList else "false".toList

mutual

def render : Json → List Char
  | .null => "null".toList
  | .boolean b => literal b
  | .number lexeme => lexeme
  | .text q => q.render
  | .array items => '[' :: renderItems items ++ [']']
  | .object members => '\x7b' :: renderMembers members ++ ['\x7d']

def renderItems : List Json → List Char
  | [] => []
  | [v] => render v
  | v :: w :: rest => render v ++ ',' :: renderItems (w :: rest)

def renderMembers : List (Quoted × Json) → List Char
  | [] => []
  | [(k, v)] => Quoted.render k ++ ':' :: render v
  | (k, v) :: m :: rest => Quoted.render k ++ ':' :: render v ++ ',' :: renderMembers (m :: rest)

end

def compactText (v : Json) : String := String.ofList (render v)

def newline (depth : Nat) : List Char := '\n' :: List.replicate (2 * depth) ' '

mutual

/-- The laid out form of a value inside `depth` containers. An empty container stays closed. -/
def layout (depth : Nat) : Json → List Char
  | .array [] => "[]".toList
  | .array (v :: rest) =>
    '[' :: newline (depth + 1) ++ layout (depth + 1) v ++ layoutItems (depth + 1) rest ++
      newline depth ++ [']']
  | .object [] => ['\x7b', '\x7d']
  | .object ((k, v) :: rest) =>
    '\x7b' :: newline (depth + 1) ++ Quoted.render k ++ [':', ' '] ++ layout (depth + 1) v ++
      layoutMembers (depth + 1) rest ++ newline depth ++ ['\x7d']
  | .null => "null".toList
  | .boolean b => literal b
  | .number lexeme => lexeme
  | .text q => q.render

def layoutItems (depth : Nat) : List Json → List Char
  | [] => []
  | v :: rest => ',' :: newline depth ++ layout depth v ++ layoutItems depth rest

def layoutMembers (depth : Nat) : List (Quoted × Json) → List Char
  | [] => []
  | (k, v) :: rest =>
    ',' :: newline depth ++ Quoted.render k ++ [':', ' '] ++ layout depth v ++
      layoutMembers depth rest

end

def prettyText (v : Json) : String := String.ofList (layout 0 v)

end MeshShell.Json
