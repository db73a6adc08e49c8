import MeshShell.Curve.X25519
import MeshShell.Files.Store
import MeshShell.Hash.Blake3
import MeshShell.Text.Hex

/-! # The identity of this process

A private key of 32 bytes, from which the public key and the identity hash
follow, and the file that keeps it. The file is written beside its place first
and then moved there, readable for its owner only.
-/
namespace MeshShell

structure KeyPair where
  secret : Bytes
  length_eq : secret.length = 32
  deriving DecidableEq, Repr

inductive IdentityError
  | read (path : String) (cause : FileError)
  | write (path : String) (cause : FileError)
  | malformed (path : String) (length : Nat)
  deriving DecidableEq, Repr

namespace IdentityError

def kind : IdentityError → String
  | .read .. => "Read"
  | .write .. => "Write"
  | .malformed .. => "Malformed"

def message : IdentityError → String
  | .read path cause => "failed to read identity " ++ path ++ ": " ++ cause.message
  | .write path cause => "failed to write identity " ++ path ++ ": " ++ cause.message
  | .malformed path length =>
    "identity file " ++ path ++ " is malformed (" ++ Decimal.text length ++ " bytes, expected 32)"

end IdentityError

namespace KeyPair

def ofBytes? (secret : Bytes) : Option KeyPair :=
  if h : secret.length = 32 then some ⟨secret, h⟩ else none

def publicKey (k : KeyPair) : Bytes := X25519.publicKey k.secret

def hash (k : KeyPair) : Bytes := Blake3.truncated k.publicKey

def hashText (k : KeyPair) : String := Hex.text k.hash

/-- The mode of a file that only its owner may read. -/
def privateMode : Nat := 0o600

def fromFile (files : Files) (path : String) : Except IdentityError KeyPair :=
  match files.readPermitted path with
  | .error cause => .error (.read path cause)
  | .ok secret =>
    if h : secret.length = 32 then .ok ⟨secret, h⟩ else .error (.malformed path secret.length)

/-- The steps of writing the file. -/
def store (k : KeyPair) (path : String) : FileAction Unit := do
  match Path.parent? path with
  | some parent => Files.ensureDirectories parent
  | none => pure ()
  let beside := Path.withExtension path "tmp"
  Files.writeFile beside k.secret privateMode
  Files.sync
  Files.modifyWith (·.moveFile beside path)

def toFile (k : KeyPair) (path : String) : EStateM IdentityError Files Unit :=
  (k.store path).adaptExcept (.write path)

/-- The identity of the file, or the fresh one if there is no such file. The flag tells that the
fresh one was taken. -/
def loadOrCreate (fresh : KeyPair) (path : String) : EStateM IdentityError Files (KeyPair × Bool) := do
  let files ← get
  if files.isFile path then
    match fromFile files path with
    | .ok k => return (k, false)
    | .error e => throw e
  else do
    fresh.toFile path
    return (fresh, true)

end KeyPair

end MeshShell
