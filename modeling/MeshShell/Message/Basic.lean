import MeshShell.Message.Geometry

/-! # Messages of a remote shell

What the two ends of a shell link say to each other on the link's channel, and
the messages that this end makes itself.
-/
namespace MeshShell

inductive Message
  | versionInfo (software : String) (revision : UInt32)
  | windowSize (rows cols hpix vpix : UInt16)
  | executeCommand (cmdline : List String) (pipeStdin pipeStdout pipeStderr : Bool)
      (term : String) (rows cols hpix vpix : UInt16)
  | streamData (stream : UInt16) (data : Bytes) (eof compressed : Bool)
  | commandExited (code : Int32)
  | error (text : String) (fatal : Bool)
  deriving DecidableEq, Repr

namespace Message

def stdinStream : UInt16 := 0
def stdoutStream : UInt16 := 1

/-- The first message on a channel. -/
def hello : Message := .versionInfo "0.1.0" 1

/-- Asks for an interactive login shell, which an empty command line stands for. -/
def loginShell (term : String) (size : Geometry) : Message :=
  .executeCommand [] false false false term size.rows size.cols 0 0

def resized (size : Geometry) : Message := .windowSize size.rows size.cols 0 0

/-- Keyboard input. -/
def stdin (data : Bytes) : Message := .streamData stdinStream data false false

def stdout (data : Bytes) : Message := .streamData stdoutStream data false false

def kind : Message → String
  | .versionInfo .. => "version_info"
  | .windowSize .. => "window_size"
  | .executeCommand .. => "execute_command"
  | .streamData .. => "stream_data"
  | .commandExited .. => "command_exited"
  | .error .. => "error"

end Message

end MeshShell
