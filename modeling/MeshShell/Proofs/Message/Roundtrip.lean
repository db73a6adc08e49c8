import MeshShell.Message.Codec
import MeshShell.Proofs.Message.Fields

/-! # Messages are read back

A message may be written with its kind before or behind its fields, as an
object or as an array of the two, with the fields in any order, and with the
bytes of a stream as numbers or as a text. From every such text the same
message is read.
-/
namespace MeshShell.Message

/-- The fields of a message. Bytes that are the UTF-8 of a string may stand as a text, in whatever
way the text is spelled. -/
inductive Spelled : Message → List (String × Json) → Prop
  | usual (m : Message) : Spelled m m.fields
  | text (stream : UInt16) {data : Bytes} (eof compressed : Bool) {s : String} {q : Json.Quoted}
      (valid : Utf8.decode? data = some s) (same : q.string? = some s) (legible : q.Legible) :
      Spelled (.streamData stream data eof compressed)
        [("stream_id", word16 stream), ("data", .text q), ("eof", .boolean eof),
          ("compressed", .boolean compressed)]

/-- How the kind of a message and its fields stand beside each other. -/
inductive Shape
  | kindFirst
  | dataFirst
  | pair
  deriving DecidableEq, Repr

def Shape.arrange (kind data : Json) : Shape → Json
  | .kindFirst => .ofFields [("type", kind), ("data", data)]
  | .dataFirst => .ofFields [("data", data), ("type", kind)]
  | .pair => .array [kind, data]

/-- One of the ways to write a message. -/
structure Writing (m : Message) where
  shape : Shape
  fields : List (String × Json)
  spelled : ∃ listed, Spelled m listed ∧ fields.Perm listed

namespace Writing

variable {m : Message}

def toJson (w : Writing m) : Json := w.shape.arrange (.ofString m.kind) (.ofFields w.fields)

def text (w : Writing m) : String := w.toJson.compactText

/-- The way in which messages are written here. -/
def usual (m : Message) : Writing m := ⟨.kindFirst, m.fields, m.fields, .usual m, .refl _⟩

/-- A stream with its bytes as a text. -/
def asText (shape : Shape) (stream : UInt16) (s : String) (eof compressed : Bool) :
    Writing (.streamData stream (Utf8.encode s) eof compressed) :=
  ⟨shape, _, _, .text stream eof compressed (Utf8.decode?_encode s) (Json.Quoted.string?_ofString s)
    (Json.Quoted.legible_ofChars s.toList), .refl _⟩

end Writing

/-- What a field may hold. -/
structure Sound (v : Json) : Prop where
  legible : v.Legible
  /-- The value may stand in the fields of a message that waits for its kind. -/
  plain : v.plain 125 = true

theorem sound_word16 (n : UInt16) : Sound (word16 n) :=
  ⟨Json.legible_ofInt _, Json.plain_ofInt (Nat.lt_trans n.toNat_lt (by decide)) _⟩

theorem sound_word32 (n : UInt32) : Sound (.ofNat n.toNat) :=
  ⟨Json.legible_ofInt _, Json.plain_ofInt (Nat.lt_trans n.toNat_lt (by decide)) _⟩

theorem sound_int32 (n : Int32) : Sound (.ofInt n.toInt) := by
  have hlow := n.le_toInt
  have hhigh := n.toInt_lt
  exact ⟨Json.legible_ofInt _, Json.plain_ofInt (by omega) _⟩

theorem sound_string (s : String) : Sound (.ofString s) :=
  ⟨Json.legible_ofString s, Json.plain_ofString s _⟩

theorem sound_boolean (b : Bool) : Sound (.boolean b) := ⟨.boolean b, rfl⟩

theorem sound_text {q : Json.Quoted} {s : String} (legible : q.Legible) (h : q.string? = some s) :
    Sound (.text q) := by
  obtain ⟨cs, hcs, -⟩ := Option.map_eq_some_iff.mp h
  exact ⟨.text legible, Json.plain_text (by rw [hcs]; rfl) _⟩

theorem sound_strings (ss : List String) : Sound (.array (ss.map Json.ofString)) := by
  refine ⟨.array ?_, Json.plainItems_iff.mpr ?_⟩ <;> intro v hv <;> obtain ⟨s, -, rfl⟩ := List.mem_map.mp hv
  · exact Json.legible_ofString s
  · exact Json.plain_ofString s _

theorem sound_numbers (bytes : Bytes) : Sound (.array (bytes.map fun b => .ofNat b.toNat)) := by
  refine ⟨.array ?_, Json.plainItems_iff.mpr ?_⟩ <;> intro v hv <;> obtain ⟨b, -, rfl⟩ := List.mem_map.mp hv
  · exact Json.legible_ofInt _
  · exact Json.plain_ofInt (Nat.lt_trans b.toNat_lt (by decide)) _

namespace Spelled

variable {m : Message} {fs : List (String × Json)}

theorem sound (h : Spelled m fs) : ∀ f ∈ fs, Sound f.2 := by
  cases h with
  | usual =>
    cases m <;>
      simp [fields, sound_word16, sound_word32, sound_int32, sound_string, sound_boolean, sound_strings,
        sound_numbers]
  | text stream eof compressed valid same legible =>
    simp [sound_word16, sound_boolean, sound_text legible same]

theorem keys (h : Spelled m fs) : fs.map (·.1) = fieldNames m.kind := by
  cases h with
  | usual => cases m <;> rfl
  | text => rfl

theorem ofFields? (h : Spelled m fs) : Message.ofFields? m.kind fs = some m := by
  cases h with
  | usual =>
    cases m <;>
      simp [Message.ofFields?, kind, fields, word16, Json.field?, List.lookup_cons, Json.word16?_ofNat,
        Json.word32?_ofNat, Json.int32?_ofInt, Json.strings?_array, Json.payload?_array, Json.bool?]
  | text stream eof compressed valid same legible =>
    have hbytes := (Json.Quoted.bytes_of_string? same).trans (Utf8.encode_of_decode? valid)
    simp [Message.ofFields?, kind, word16, Json.field?, List.lookup_cons, Json.word16?_ofNat, Json.payload?,
      Json.bool?, hbytes]

end Spelled

theorem nodup_fieldNames (kind : String) : (fieldNames kind).Nodup := by
  unfold fieldNames
  split <;> decide

theorem ofFields?_congr (kind : String) {fs gs : List (String × Json)}
    (h : ∀ name, fs.lookup name = gs.lookup name) : ofFields? kind fs = ofFields? kind gs := by
  have hfield : ∀ {α : Type} (name : String) (read : Json → Option α),
      Json.field? fs name read = Json.field? gs name read :=
    fun name read => by rw [Json.field?, h, ← Json.field?]
  unfold ofFields?
  simp only [hfield]

namespace Writing

variable {m : Message} (w : Writing m)

theorem keys_nodup : (w.fields.map (·.1)).Nodup := by
  obtain ⟨listed, hlisted, hperm⟩ := w.spelled
  rw [(hperm.map Prod.fst).nodup_iff, hlisted.keys]
  exact nodup_fieldNames m.kind

theorem sound : ∀ f ∈ w.fields, Sound f.2 := by
  obtain ⟨listed, hlisted, hperm⟩ := w.spelled
  exact fun f hf => hlisted.sound f (hperm.mem_iff.mp hf)

theorem ofMembers? :
    Message.ofMembers? (.ofString m.kind) (Json.membersOf w.fields) = some m := by
  obtain ⟨listed, hlisted, hperm⟩ := w.spelled
  have hnames : ∀ f ∈ w.fields, f.1 ∈ fieldNames m.kind := by
    intro f hf
    rw [← hlisted.keys]
    exact List.mem_map_of_mem (hperm.mem_iff.mp hf)
  have hkind : kind? (.ofString m.kind) = some m.kind := Json.Quoted.string?_ofString m.kind
  rw [Message.ofMembers?, hkind]
  simp only [Option.bind_eq_bind, Option.bind_some]
  rw [Json.fields?_membersOf w.keys_nodup hnames, Option.bind_some,
    ofFields?_congr m.kind (Json.lookup_perm hperm w.keys_nodup), hlisted.ofFields?]

theorem legible : w.toJson.Legible := by
  have hkind := Json.legible_ofString m.kind
  have hdata := Json.legible_ofFields fun f hf => (w.sound f hf).legible
  unfold toJson Shape.arrange
  split
  · exact Json.legible_ofFields (by simp [hkind, hdata])
  · exact Json.legible_ofFields (by simp [hkind, hdata])
  · exact .array (by simp [hkind, hdata])

theorem held : Json.plain heldDepth (.ofFields w.fields) = true := by
  show Json.plainMembers 125 (Json.membersOf w.fields) = true
  exact Json.plainMembers_membersOf.mpr fun f hf => (w.sound f hf).plain

theorem ofJson? : Message.ofJson? w.toJson = some m := by
  have hdata := w.ofMembers?
  unfold toJson Shape.arrange
  split
  · rw [Json.ofFields_eq, Message.ofJson?, Json.fields?_membersOf (by simp) (by simp)]
    exact hdata
  · rw [Json.ofFields_eq, Message.ofJson?, Json.fields?_membersOf (by simp) (by simp)]
    -- The fields wait for their kind.
    exact (if_pos w.held).trans hdata
  · exact hdata

end Writing

/-- A message is read back from its text, and from every other way in which it can be written. -/
theorem read_back (m : Message) : parse? m.text = some m ∧ ∀ w : Writing m, parse? w.text = some m := by
  have key : ∀ w : Writing m, parse? w.text = some m := fun w => by
    rw [parse?, Writing.text, w.legible.ofText?_compactText, Option.bind_some, w.ofJson?]
  exact ⟨key (.usual m), key⟩

example : (Writing.asText .dataFirst 1 "ä\n" false false).text =
    "\x7b\"data\":\x7b\"stream_id\":1,\"data\":\"ä\\n\",\"eof\":false,\"compressed\":false\x7d," ++
      "\"type\":\"stream_data\"\x7d" := by decide +kernel

end MeshShell.Message
