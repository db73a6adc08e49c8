import MeshShell.Config.Transport
import MeshShell.Mesh.HopCount
import MeshShell.Mesh.RemoteIdentity
import MeshShell.Message.Basic
import MeshShell.Transport.Error

/-! # What the session layer asks of a transport

A transport knows paths and identities, opens links, carries messages on them
and attaches interfaces. What happens on a link comes back as callbacks, which
wait until they are delivered. A transport may have timers of its own.
-/
namespace MeshShell

/-- Links are numbered in the order in which they are opened. -/
abbrev LinkId := Nat

/-- Times and spans are counted in milliseconds, without a limit. Deadlines that a machine clock
cannot represent are out of scope. -/
abbrev Millis := Nat

inductive Callback
  | established
  | closed
  | message (m : Message)
  deriving DecidableEq, Repr

/-- The aspect that remote shells announce and serve. -/
def shellAspect : String := "rnsh"

class Transport (σ : Type) where
  hasPath : Destination → σ → Bool
  /-- Asks for a path. The answer, if there is one, comes later. -/
  requestPath : Millis → Destination → σ → σ
  recallIdentity : Destination → σ → Option RemoteIdentity
  hopsTo : Destination → σ → HopCount
  /-- A new link to an aspect of an identity. Its callbacks come later. -/
  openLink : Millis → RemoteIdentity → String → σ → Except TransportError LinkId × σ
  /-- Whether the channel of a link can be had. -/
  channel : LinkId → σ → Except TransportError Unit
  /-- From now on the messages of a link are wanted. -/
  setHandler : LinkId → σ → σ
  send : LinkId → Message → σ → Except TransportError Unit × σ
  teardown : LinkId → σ → σ
  attach : Interface → σ → Except TransportError Unit × σ
  /-- The callbacks that are waiting, oldest first. -/
  deliver : σ → List (LinkId × Callback) × σ
  /-- The next time at which something happens by itself. -/
  due? : σ → Option Millis
  /-- Lets happen what is due by the given time. -/
  wake : Millis → σ → σ

end MeshShell
