/-! # Environment variables

The variables that are set, each at most once.
-/
namespace MeshShell

abbrev Environment := List (String × String)

namespace Environment

def get? (env : Environment) (name : String) : Option String := env.lookup name

def unset (env : Environment) (name : String) : Environment := env.filter (·.1 ≠ name)

def set (env : Environment) (name value : String) : Environment := (name, value) :: env.unset name

end Environment

end MeshShell
