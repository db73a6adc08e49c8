import MeshShell.Identity.KeyPair
import MeshShell.Session.Basic

/-! # Failures of the bridge

Everything that a call of the host can fail with.
-/
namespace MeshShell

inductive BridgeError
  | notInitialized
  | invalidHash (cause : HashError)
  | config (cause : ConfigError)
  | identity (cause : IdentityError)
  | transport (cause : TransportError)
  | session (cause : SessionError)
  deriving DecidableEq, Repr

def HashError.kind : HashError → String
  | .invalidHex _ => "InvalidHex"
  | .wrongLength _ => "WrongLength"

namespace BridgeError

def kind : BridgeError → String
  | .notInitialized => "NotInitialized"
  | .invalidHash cause => "InvalidHash." ++ cause.kind
  | .config cause => "Config." ++ cause.kind
  | .identity cause => "Identity." ++ cause.kind
  | .transport cause => "Transport." ++ cause.kind
  | .session cause => "Session." ++ cause.kind

def message? : BridgeError → Option String
  | .notInitialized => some "bridge is not bootstrapped"
  | .invalidHash cause => some cause.message
  | .config cause => cause.message?
  | .identity cause => some cause.message
  | .transport cause => some cause.message
  | .session cause => some cause.message

end BridgeError

end MeshShell
