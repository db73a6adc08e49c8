import MeshShell.Message.Codec
import Mathlib.Tactic.Simproc.ExistsAndEq

/-! # A message by the values of its fields

What a field may hold depends on its name only. A message is read if each field
of its kind has a value of that sort, and then these are the values it has.
-/
namespace MeshShell.Message

/-- What a field holds. -/
inductive Value
  | text (s : String)
  | texts (ss : List String)
  | flag (b : Bool)
  | number (n : Int)
  | bytes (data : Bytes)
  deriving DecidableEq, Repr

/-- What the fields of a message hold. -/
def values : Message → List (String × Value)
  | .versionInfo software revision =>
    [("sw_version", .text software), ("protocol_version", .number revision.toNat)]
  | .windowSize rows cols hpix vpix =>
    [("rows", .number rows.toNat), ("cols", .number cols.toNat), ("hpix", .number hpix.toNat),
      ("vpix", .number vpix.toNat)]
  | .executeCommand cmdline pipeStdin pipeStdout pipeStderr term rows cols hpix vpix =>
    [("cmdline", .texts cmdline), ("pipe_stdin", .flag pipeStdin), ("pipe_stdout", .flag pipeStdout),
      ("pipe_stderr", .flag pipeStderr), ("term", .text term), ("rows", .number rows.toNat),
      ("cols", .number cols.toNat), ("hpix", .number hpix.toNat), ("vpix", .number vpix.toNat)]
  | .streamData stream data eof compressed =>
    [("stream_id", .number stream.toNat), ("data", .bytes data), ("eof", .flag eof),
      ("compressed", .flag compressed)]
  | .commandExited code => [("return_code", .number code.toInt)]
  | .error text fatal => [("msg", .text text), ("fatal", .flag fatal)]

theorem keys_values (m : Message) : m.values.map (·.1) = fieldNames m.kind := by
  cases m <;> rfl

theorem lookup_eq_none_iff {m : Message} {name : String} :
    m.values.lookup name = none ↔ name ∉ fieldNames m.kind := by
  rw [List.lookup_eq_none_iff, ← keys_values]
  constructor
  · intro h hname
    obtain ⟨p, hp, rfl⟩ := List.mem_map.mp hname
    simpa using h p hp
  · intro h p hp
    rw [bne_iff_ne]
    rintro rfl
    exact h (List.mem_map_of_mem hp)

namespace Value

def word (n : UInt16) : Value := .number n.toNat

def long (n : UInt32) : Value := .number n.toNat

def signed (n : Int32) : Value := .number n.toInt

theorem word_injective : Function.Injective word := fun a b h => by
  simpa [word, Int.natCast_inj, UInt16.toNat_inj] using h

theorem long_injective : Function.Injective long := fun a b h => by
  simpa [long, Int.natCast_inj, UInt32.toNat_inj] using h

theorem signed_injective : Function.Injective signed := fun a b h => by
  simpa [signed, Int32.toInt_inj] using h

/-- The value that a field of the given name is read as. -/
def read? : String → Json → Option Value
  | "sw_version", v | "term", v | "msg", v => v.string?.map text
  | "cmdline", v => v.strings?.map texts
  | "data", v => v.payload?.map bytes
  | "protocol_version", v => v.word32?.map long
  | "rows", v | "cols", v | "hpix", v | "vpix", v | "stream_id", v => v.word16?.map word
  | "return_code", v => v.int32?.map signed
  | "pipe_stdin", v | "pipe_stdout", v | "pipe_stderr", v | "eof", v | "compressed", v | "fatal", v =>
    v.bool?.map flag
  | _, _ => none

end Value

section Fields

variable {fs : List (String × Json)}

/-- The value of a field. -/
def held? (fs : List (String × Json)) (name : String) : Option Value :=
  (fs.lookup name).bind (Value.read? name)

theorem field?_eq_some_iff {α : Type} (fs : List (String × Json)) (name : String)
    (read : Json → Option α) {wrap : α → Value}
    (hwrap : Function.Injective wrap) (hread : ∀ v, Value.read? name v = (read v).map wrap) {x : α} :
    Json.field? fs name read = some x ↔ held? fs name = some (wrap x) := by
  have hmap : held? fs name = (Json.field? fs name read).map wrap := by
    simp only [held?, Json.field?, Option.map_bind, funext hread]
    rfl
  rw [hmap, Option.map_eq_some_iff]
  exact ⟨fun h => ⟨x, h, rfl⟩, fun ⟨y, hy, hxy⟩ => hwrap hxy ▸ hy⟩

theorem kind_of_ofFields? {kind : String} {m : Message} (h : ofFields? kind fs = some m) : m.kind = kind := by
  unfold ofFields? at h
  split at h <;>
    simp only [Option.bind_eq_bind, Option.bind_eq_some_iff, Option.pure_def, Option.some.injEq,
      reduceCtorEq] at h
  · obtain ⟨_, -, _, -, rfl⟩ := h
    rfl
  · obtain ⟨_, -, _, -, _, -, _, -, rfl⟩ := h
    rfl
  · obtain ⟨_, -, _, -, _, -, _, -, _, -, _, -, _, -, _, -, _, -, rfl⟩ := h
    rfl
  · obtain ⟨_, -, _, -, _, -, _, -, rfl⟩ := h
    rfl
  · obtain ⟨_, -, rfl⟩ := h
    rfl
  · obtain ⟨_, -, _, -, rfl⟩ := h
    rfl

theorem ofFields?_eq_some_iff {m : Message} : ofFields? m.kind fs = some m ↔
    ∀ name ∈ fieldNames m.kind, held? fs name = m.values.lookup name := by
  have htext := fun name => field?_eq_some_iff fs name Json.string? fun _ _ => Value.text.inj
  have htexts := fun name => field?_eq_some_iff fs name Json.strings? fun _ _ => Value.texts.inj
  have hflag := fun name => field?_eq_some_iff fs name Json.bool? fun _ _ => Value.flag.inj
  have hbytes := fun name => field?_eq_some_iff fs name Json.payload? fun _ _ => Value.bytes.inj
  have hword := fun name => field?_eq_some_iff fs name Json.word16? Value.word_injective
  have hlong := fun name => field?_eq_some_iff fs name Json.word32? Value.long_injective
  have hsigned := fun name => field?_eq_some_iff fs name Json.int32? Value.signed_injective
  cases m <;>
    simp [Message.ofFields?, Message.kind, fieldNames, values, Option.bind_eq_some_iff, List.lookup_cons,
      Value.read?, Value.word, Value.long, Value.signed, htext, htexts, hflag, hbytes, hword, hlong, hsigned,
      -Bool.exists_bool]

end Fields

end MeshShell.Message
