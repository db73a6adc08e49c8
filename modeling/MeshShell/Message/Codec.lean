import MeshShell.Message.Basic

/-! # Messages in JSON

A message is an object with its kind under `type` and its fields under `data`,
or an array of the two. Members that are not known are passed over; a field
that is missing, comes twice or has a value outside its range makes the whole
text invalid. When `data` comes before `type` it is held until the kind is
known, and then all of it must be plain.
-/
namespace MeshShell.Message

def word16 (n : UInt16) : Json := .ofNat n.toNat

def fields : Message → List (String × Json)
  | .versionInfo software revision =>
    [("sw_version", .ofString software), ("protocol_version", .ofNat revision.toNat)]
  | .windowSize rows cols hpix vpix =>
    [("rows", word16 rows), ("cols", word16 cols), ("hpix", word16 hpix), ("vpix", word16 vpix)]
  | .executeCommand cmdline pipeStdin pipeStdout pipeStderr term rows cols hpix vpix =>
    [("cmdline", .array (cmdline.map Json.ofString)), ("pipe_stdin", .boolean pipeStdin),
      ("pipe_stdout", .boolean pipeStdout), ("pipe_stderr", .boolean pipeStderr),
      ("term", .ofString term), ("rows", word16 rows), ("cols", word16 cols),
      ("hpix", word16 hpix), ("vpix", word16 vpix)]
  | .streamData stream data eof compressed =>
    [("stream_id", word16 stream), ("data", .array (data.map fun b => .ofNat b.toNat)),
      ("eof", .boolean eof), ("compressed", .boolean compressed)]
  | .commandExited code => [("return_code", .ofInt code.toInt)]
  | .error text fatal => [("msg", .ofString text), ("fatal", .boolean fatal)]

def toJson (m : Message) : Json :=
  .ofFields [("type", .ofString m.kind), ("data", .ofFields m.fields)]

def text (m : Message) : String := m.toJson.compactText

/-- The names of the fields of a kind. -/
def fieldNames : String → List String
  | "version_info" => ["sw_version", "protocol_version"]
  | "window_size" => ["rows", "cols", "hpix", "vpix"]
  | "execute_command" =>
    ["cmdline", "pipe_stdin", "pipe_stdout", "pipe_stderr", "term", "rows", "cols", "hpix", "vpix"]
  | "stream_data" => ["stream_id", "data", "eof", "compressed"]
  | "command_exited" => ["return_code"]
  | "error" => ["msg", "fatal"]
  | _ => []

/-- The message of a kind with the given fields. -/
def ofFields? (kind : String) (fields : List (String × Json)) : Option Message :=
  match kind with
  | "version_info" => do
    return .versionInfo (← Json.field? fields "sw_version" Json.string?)
      (← Json.field? fields "protocol_version" Json.word32?)
  | "window_size" => do
    return .windowSize (← Json.field? fields "rows" Json.word16?)
      (← Json.field? fields "cols" Json.word16?) (← Json.field? fields "hpix" Json.word16?)
      (← Json.field? fields "vpix" Json.word16?)
  | "execute_command" => do
    return .executeCommand (← Json.field? fields "cmdline" Json.strings?)
      (← Json.field? fields "pipe_stdin" Json.bool?) (← Json.field? fields "pipe_stdout" Json.bool?)
      (← Json.field? fields "pipe_stderr" Json.bool?) (← Json.field? fields "term" Json.string?)
      (← Json.field? fields "rows" Json.word16?) (← Json.field? fields "cols" Json.word16?)
      (← Json.field? fields "hpix" Json.word16?) (← Json.field? fields "vpix" Json.word16?)
  | "stream_data" => do
    return .streamData (← Json.field? fields "stream_id" Json.word16?)
      (← Json.field? fields "data" Json.payload?) (← Json.field? fields "eof" Json.bool?)
      (← Json.field? fields "compressed" Json.bool?)
  | "command_exited" => do return .commandExited (← Json.field? fields "return_code" Json.int32?)
  | "error" => do
    return .error (← Json.field? fields "msg" Json.string?) (← Json.field? fields "fatal" Json.bool?)
  | _ => none

/-- A kind stands as a text, or as the key of an object that holds nothing but a null. -/
def kind? : Json → Option String
  | .text q => q.string?
  | .object [(k, .null)] => Json.Quoted.string? k
  | _ => none

def ofMembers? (kind : Json) (data : List (Json.Quoted × Json)) : Option Message := do
  let kind ← kind? kind
  let fields ← Json.fields? (fieldNames kind) data
  ofFields? kind fields

/-- How deep the value of `data` may be nested when it is held. -/
def heldDepth : Nat := 126

def ofJson? : Json → Option Message
  | .array [kind, .object data] => ofMembers? kind data
  | .object members => do
    match ← Json.fields? ["type", "data"] members with
    | [("type", kind), ("data", .object data)] => ofMembers? kind data
    | [("data", .object data), ("type", kind)] =>
      if Json.plain heldDepth (.object data) then ofMembers? kind data else none
    | _ => none
  | _ => none

def parse? (s : String) : Option Message := (Json.ofText? s).bind ofJson?

end MeshShell.Message
