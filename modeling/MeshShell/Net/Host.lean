import MeshShell.Net.Address
import MeshShell.Text.Blank

/-! # Host names

A host names this machine if it is `localhost` or a loopback address. The test
looks past white space around the name and past brackets.
-/
namespace MeshShell.Host

/-- The brackets before and after a name, however many there are, do not count. -/
def unbracket (cs : List Char) : List Char :=
  Text.dropRightWhile (· == ']') (cs.dropWhile (· == '['))

def isLoopbackName (cs : List Char) : Bool :=
  Text.lower cs == "localhost".toList ||
    match Address.parse? cs with
    | some a => a.isLoopback
    | none => false

def isLoopback (host : String) : Bool :=
  isLoopbackName (unbracket (Text.trim host.toList))

end MeshShell.Host
