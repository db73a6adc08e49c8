/-! # Failures of the transport

What a transport reports when a link, a channel, an interface or its own start
does not work.
-/
namespace MeshShell

inductive TransportError
  | linkUnavailable (why : String)
  | channelClosed
  | interfaceFailed (endpoint reason : String)
  | startFailed (why : String)
  | io (text : String)
  deriving DecidableEq, Repr

namespace TransportError

def kind : TransportError → String
  | .linkUnavailable _ => "LinkUnavailable"
  | .channelClosed => "ChannelClosed"
  | .interfaceFailed .. => "InterfaceFailed"
  | .startFailed _ => "StartFailed"
  | .io _ => "Io"

def message : TransportError → String
  | .linkUnavailable why => "link unavailable: " ++ why
  | .channelClosed => "channel closed"
  | .interfaceFailed endpoint reason => "interface " ++ endpoint ++ " failed: " ++ reason
  | .startFailed why => "transport start failed: " ++ why
  | .io text => "transport i/o: " ++ text

end TransportError

end MeshShell
