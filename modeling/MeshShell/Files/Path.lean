import MeshShell.Text.Utf8

/-! # Paths as text

A path is kept as it was given and shown as it was given. Its parts are the
names between the slashes; a single point counts as a part only at the start.
-/
namespace MeshShell.Path

/-- The pieces between slashes, empty ones included. -/
def split : List Char → List (List Char)
  | [] => [[]]
  | c :: cs =>
    if c = '/' then [] :: split cs
    else
      match split cs with
      | [] => [[c]]
      | p :: ps => (c :: p) :: ps

/-- The names that are walked through, points included. -/
def names (path : String) : List String :=
  ((split path.toList).filter (!·.isEmpty)).map String.ofList

def isAbsolute (path : String) : Bool := path.toList.head? = some '/'

def hasTrailingSlash (path : String) : Bool := path.toList.getLast? = some '/'

/-- The parts of a path. -/
def parts (path : String) : List String :=
  let rest := fun ns : List String => ns.filter (· ≠ ".")
  match names path with
  | "." :: more => if isAbsolute path then rest more else "." :: rest more
  | ns => rest ns

def ofParts (absolute : Bool) (ps : List String) : String :=
  (if absolute then "/" else "") ++ "/".intercalate ps

/-- A relative path below a directory. The empty path stands for the directory they start in. -/
def join (directory path : String) : String :=
  if directory.isEmpty || hasTrailingSlash directory then directory ++ path
  else directory ++ "/" ++ path

/-- The path without its last part. -/
def parent? (path : String) : Option String :=
  if (parts path).isEmpty then none else some (ofParts (isAbsolute path) (parts path).dropLast)

/-- The last part, if it names something. -/
def fileName? (path : String) : Option String :=
  match (parts path).getLast? with
  | some "." => none
  | some ".." => none
  | last => last

/-- A name without its last point and what follows it. A point at the start does not count. -/
def stem (name : String) : String :=
  let kept := (name.toList.reverse.dropWhile (· ≠ '.')).drop 1
  if kept.isEmpty then name else String.ofList kept.reverse

/-- The path of the file beside it that has another extension. -/
def withExtension (path extension : String) : String :=
  match fileName? path with
  | none => path
  | some name =>
    ofParts (isAbsolute path) ((parts path).dropLast ++ [stem name ++ "." ++ extension])

end MeshShell.Path
