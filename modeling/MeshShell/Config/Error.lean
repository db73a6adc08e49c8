import MeshShell.Files.Store

/-! # Failures of configuration files

A configuration file can fail to be read, to be understood, or to be written.
-/
namespace MeshShell

inductive ConfigError
  | readFailed (path : String) (cause : FileError)
  | parseFailed (path : String)
  | writeFailed (path : String) (cause : FileError)
  deriving DecidableEq, Repr

namespace ConfigError

def kind : ConfigError → String
  | .readFailed .. => "ReadFailed"
  | .parseFailed _ => "ParseFailed"
  | .writeFailed .. => "WriteFailed"

/-- The text of a failure. What the reader of the format has to say is not part of it. -/
def message? : ConfigError → Option String
  | .readFailed path cause => some ("failed to read " ++ path ++ ": " ++ cause.message)
  | .parseFailed _ => none
  | .writeFailed path cause => some ("failed to write " ++ path ++ ": " ++ cause.message)

end ConfigError

abbrev ConfigAction (α : Type) := EStateM ConfigError Files α

end MeshShell
