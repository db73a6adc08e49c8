import MeshShell.Proofs.Message.Gaps
import MeshShell.Proofs.Message.Values

/-! # No integer of a message is cut off

Whatever integer stands in the place of one that is read, it is read as it is,
and nothing else changes, or the text is invalid because it is out of the range
of its place.
-/
namespace MeshShell

namespace Message

/-- The places of a message in which there are integers. -/
inductive Slot
  | revision
  | rows
  | cols
  | hpix
  | vpix
  | stream
  | byte (i : Nat)
  | code
  deriving DecidableEq, Repr

namespace Slot

/-- The name of the field that a place is in. -/
def field : Slot → String
  | .revision => "protocol_version"
  | .rows => "rows"
  | .cols => "cols"
  | .hpix => "hpix"
  | .vpix => "vpix"
  | .stream => "stream_id"
  | .byte _ => "data"
  | .code => "return_code"

def low : Slot → Int
  | .code => -2147483648
  | _ => 0

def high : Slot → Int
  | .revision => 4294967295
  | .byte _ => 255
  | .code => 2147483647
  | _ => 65535

def Fits (s : Slot) (n : Int) : Prop := s.low ≤ n ∧ n ≤ s.high

instance (s : Slot) (n : Int) : Decidable (s.Fits n) := inferInstanceAs (Decidable (_ ∧ _))

/-- The integer that the value of the field has in a place. -/
def ofValue? : Slot → Value → Option Int
  | .byte i, .bytes data => data[i]?.map fun b => (b.toNat : Int)
  | .byte _, _ => none
  | _, .number n => some n
  | _, _ => none

/-- The value of the field with another integer in a place. -/
def replace (n : Int) : Slot → Value → Value
  | .byte i, .bytes data => .bytes (data.set i (.ofNat n.toNat))
  | .byte _, v => v
  | _, _ => .number n

end Slot

/-- The integer of a message in a place. -/
def get? (s : Slot) (m : Message) : Option Int := (m.values.lookup s.field).bind s.ofValue?

/-- The message with another integer in a place. -/
def put (n : Int) : Slot → Message → Message
  | .revision, .versionInfo software _ => .versionInfo software (.ofNat n.toNat)
  | .rows, .windowSize _ cols hpix vpix => .windowSize (.ofNat n.toNat) cols hpix vpix
  | .cols, .windowSize rows _ hpix vpix => .windowSize rows (.ofNat n.toNat) hpix vpix
  | .hpix, .windowSize rows cols _ vpix => .windowSize rows cols (.ofNat n.toNat) vpix
  | .vpix, .windowSize rows cols hpix _ => .windowSize rows cols hpix (.ofNat n.toNat)
  | .rows, .executeCommand line i o e term _ cols hpix vpix =>
    .executeCommand line i o e term (.ofNat n.toNat) cols hpix vpix
  | .cols, .executeCommand line i o e term rows _ hpix vpix =>
    .executeCommand line i o e term rows (.ofNat n.toNat) hpix vpix
  | .hpix, .executeCommand line i o e term rows cols _ vpix =>
    .executeCommand line i o e term rows cols (.ofNat n.toNat) vpix
  | .vpix, .executeCommand line i o e term rows cols hpix _ =>
    .executeCommand line i o e term rows cols hpix (.ofNat n.toNat)
  | .stream, .streamData _ data eof compressed => .streamData (.ofNat n.toNat) data eof compressed
  | .byte i, .streamData stream data eof compressed =>
    .streamData stream (data.set i (.ofNat n.toNat)) eof compressed
  | .code, .commandExited _ => .commandExited (.ofInt n)
  | _, m => m

theorem kind_put (n : Int) (s : Slot) (m : Message) : (m.put n s).kind = m.kind := by
  unfold put
  split <;> rfl

theorem toInt_signed {n : Int} (h : -2147483648 ≤ n ∧ n ≤ 2147483647) : (Int32.ofInt n).toInt = n :=
  Int32.toInt_ofInt_of_le (by omega) (by omega)

theorem values_put {n : Int} {s : Slot} (h : s.Fits n) (m : Message) : (m.put n s).values =
    m.values.map fun (name, v) => (name, if name = s.field then s.replace n v else v) := by
  unfold Slot.Fits at h
  cases s <;> cases m <;>
    simp_all [put, values, Slot.low, Slot.high, Slot.field, Slot.replace, toInt_signed, -Int32.toInt_ofInt] <;>
    omega

/-- Nothing differs between two messages but the integer in a place. -/
structure Placed (s : Slot) (n : Int) (m m' : Message) : Prop where
  kind : m'.kind = m.kind
  integer : m'.get? s = some n
  integers : ∀ t, t ≠ s → m'.get? t = m.get? t
  values : ∀ name, name ≠ s.field → m'.values.lookup name = m.values.lookup name

theorem lookup_put {n : Int} {s : Slot} (h : s.Fits n) (m : Message) (name : String) :
    (m.put n s).values.lookup name =
      (m.values.lookup name).map fun v => if name = s.field then s.replace n v else v := by
  rw [values_put h]
  induction m.values with
  | nil => rfl
  | cons f fs ih =>
    obtain ⟨k, v⟩ := f
    rw [List.map_cons, List.lookup_cons, List.lookup_cons, ih]
    cases hk : name == k with
    | false => rfl
    | true => simp [beq_iff_eq.mp hk]

/-- A value of a field with a gap for the integer. -/
inductive Slot.Gap : Slot → (Json → Json) → Prop
  | own {s : Slot} : (∀ i, s ≠ .byte i) → s.Gap id
  | item (before after : List Json) :
    (Slot.byte before.length).Gap fun x => .array (before ++ x :: after)

namespace Slot

variable {s t : Slot} {w : Value} {n : Int}

theorem read?_own (hs : ∀ i, s ≠ .byte i) (v : Json) :
    Value.read? s.field v = (v.bounded? s.low s.high).map .number := by
  cases hk : v.bounded? s.low s.high with
  | none =>
    cases s <;> first
      | exact absurd rfl (hs _)
      | simp_all [field, low, high, Value.read?, Json.word16?, Json.word32?, Json.int32?]
  | some k =>
    have hrange := Json.bounded?_range hk
    cases s <;> first
      | exact absurd rfl (hs _)
      | simp_all [field, low, high, Value.read?, Json.word16?, Json.word32?, Json.int32?, Value.word,
          Value.long, Value.signed, toInt_signed, -Int32.toInt_ofInt] <;> omega

theorem eq_or_bytes (h : t.field = s.field) : t = s ∨ ∃ j i, j ≠ i ∧ t = .byte j ∧ s = .byte i := by
  cases s <;> cases t <;> simp_all [field]
  omega

theorem ofValue?_replace (hn : s.Fits n) (hw : (s.ofValue? w).isSome) (ht : t.field = s.field) :
    t.ofValue? (s.replace n w) = if t = s then some n else t.ofValue? w := by
  rcases eq_or_bytes ht with rfl | ⟨j, i, hj, rfl, rfl⟩
  · rw [if_pos rfl]
    cases t with
    | byte i =>
      cases w with
      | bytes data =>
        have hi : i < data.length := by simpa [ofValue?] using hw
        simp only [Fits, low, high] at hn
        simp [ofValue?, replace, hi]
        omega
      | _ => cases hw
    | _ => rfl
  · cases w with
    | bytes data => simp [ofValue?, replace, hj, List.getElem?_set_ne hj.symm]
    | _ => cases hw

end Slot

namespace Slot.Gap

variable {s : Slot} {inner : Json → Json} {held : Json} {w : Value} {n : Int}

/-- With an integer in the gap the value is read if the integer fits, and it is the value that
was there with this integer in the place. -/
theorem read? (h : s.Gap inner) (hheld : Value.read? s.field (inner held) = some w) :
    Value.read? s.field (inner (.ofInt n)) = if s.Fits n then some (s.replace n w) else none := by
  cases h with
  | own hs =>
    rw [id, read?_own hs, Json.bounded?_ofInt_eq]
    have hreplace : s.replace n w = .number n := by
      cases s <;> first | rfl | exact absurd rfl (hs _)
    rw [hreplace, apply_ite (Option.map Value.number)]
    rfl
  | item before after =>
    obtain ⟨data, hdata, rfl⟩ := Option.map_eq_some_iff.mp hheld
    obtain ⟨bs, b, cs, hbs, -, hcs, rfl⟩ := Json.mapM_gap.mp hdata
    have hbyte : Json.byte? (.ofInt n) = if 0 ≤ n ∧ n ≤ 255 then some (.ofNat n.toNat) else none := by
      rw [Json.byte?, Json.bounded?_ofInt_eq]
      split <;> rfl
    have hreplace : (Slot.byte before.length).replace n (.bytes (bs ++ b :: cs)) =
        .bytes (bs ++ .ofNat n.toNat :: cs) := by
      simp [Slot.replace, ← Json.length_of_mapM hbs]
    rw [hreplace]
    show (List.mapM Json.byte? (before ++ .ofInt n :: after)).map Value.bytes = _
    split
    · rename_i hn
      rw [Json.mapM_gap.mpr ⟨bs, _, cs, hbs, hbyte.trans (if_pos hn), hcs, rfl⟩]
      rfl
    · rename_i hn
      have hnone : (before ++ .ofInt n :: after).mapM Json.byte? = none := by
        refine Option.eq_none_iff_forall_ne_some.mpr fun data hdata => ?_
        obtain ⟨_, _, _, -, hb, -⟩ := Json.mapM_gap.mp hdata
        cases hb.symm.trans (hbyte.trans (if_neg hn))
      rw [hnone]
      rfl

theorem plain (h : s.Gap inner) (hn : s.Fits n) {depth : Nat} (hheld : (inner held).plain depth = true) :
    (inner (.ofInt n)).plain depth = true := by
  have hsmall : n.natAbs < 10 ^ 100 := by
    unfold Slot.Fits at hn
    cases s <;> simp only [Slot.low, Slot.high] at hn <;> omega
  cases h with
  | own => exact Json.plain_ofInt hsmall depth
  | item before after =>
    cases depth with
    | zero => exact hheld
    | succ depth =>
      rw [Json.plain, Json.plainItems_iff] at hheld ⊢
      intro v hv
      rcases List.mem_append.mp hv with hv | hv
      · exact hheld v (List.mem_append_left _ hv)
      · rcases List.mem_cons.mp hv with rfl | hv
        · exact Json.plain_ofInt hsmall depth
        · exact hheld v (List.mem_append_right _ (List.mem_cons_of_mem _ hv))

end Slot.Gap

/-- The members of the fields of a message with a gap for the integer. -/
inductive Slot.Members (s : Slot) : (Json → List (Json.Quoted × Json)) → Prop
  | intro {key : Json.Quoted} {inner : Json → Json} (before after : List (Json.Quoted × Json)) :
    key.string? = some s.field → s.Gap inner → s.Members fun x => before ++ (key, inner x) :: after

/-- A whole message with a gap for the integer: an array of the kind and the fields, or an object
with the kind before or behind the fields and possibly with other members. -/
inductive Slot.Document (s : Slot) : (Json → Json) → Prop
  | pair {data : Json → List (Json.Quoted × Json)} (kind : Json) :
    s.Members data → s.Document fun x => .array [kind, .object (data x)]
  | object {key : Json.Quoted} {data : Json → List (Json.Quoted × Json)}
      (before after : List (Json.Quoted × Json)) : key.string? = some "data" → s.Members data →
    s.Document fun x => .object (before ++ (key, .object (data x)) :: after)

section Reading

variable {s : Slot} {data : Json → List (Json.Quoted × Json)} {doc : Json → Json} {kind held : Json}
variable {m : Message} {n : Int}

theorem exists_value (hs : (m.get? s).isSome) :
    ∃ w, m.values.lookup s.field = some w ∧ (s.ofValue? w).isSome := by
  obtain ⟨n, hn⟩ := Option.isSome_iff_exists.mp hs
  obtain ⟨w, hw, hwn⟩ := Option.bind_eq_some_iff.mp hn
  exact ⟨w, hw, by rw [hwn]; rfl⟩

theorem field_mem (hs : (m.get? s).isSome) : s.field ∈ fieldNames m.kind := by
  obtain ⟨w, hw, -⟩ := exists_value hs
  by_contra hnot
  cases hw.symm.trans (lookup_eq_none_iff.mpr hnot)

theorem placed_put (hn : s.Fits n) (hs : (m.get? s).isSome) : Placed s n m (m.put n s) := by
  obtain ⟨w, hw, hinteger⟩ := exists_value hs
  have hreplaced : (m.put n s).values.lookup s.field = some (s.replace n w) := by
    rw [lookup_put hn, hw, Option.map_some, if_pos rfl]
  have hother : ∀ name, name ≠ s.field → (m.put n s).values.lookup name = m.values.lookup name := by
    intro name hname
    simp [lookup_put hn, hname]
  refine ⟨kind_put n s m, ?_, fun t ht => ?_, hother⟩
  · rw [get?, hreplaced, Option.bind_some, Slot.ofValue?_replace hn hinteger rfl, if_pos rfl]
  · by_cases hfield : t.field = s.field
    · rw [get?, get?, hfield, hreplaced, hw, Option.bind_some, Option.bind_some,
        Slot.ofValue?_replace hn hinteger hfield, if_neg ht]
    · rw [get?, get?, hother t.field hfield]

/-- The fields around the gap stay, and the field with the gap is read anew. -/
theorem ofFields?_gap {fs gs : List (String × Json)} {inner : Json → Json}
    (hfs : fs.lookup s.field = none) (h : s.Gap inner)
    (hm : ofFields? m.kind (fs ++ (s.field, inner held) :: gs) = some m) (hs : (m.get? s).isSome) :
    ofFields? m.kind (fs ++ (s.field, inner (.ofInt n)) :: gs) =
      if s.Fits n then some (m.put n s) else none := by
  obtain ⟨w, hw, -⟩ := exists_value hs
  have hname := field_mem hs
  have hown : ∀ v, held? (fs ++ (s.field, v) :: gs) s.field = Value.read? s.field v := by
    intro v
    simp [held?, List.lookup_append, hfs]
  have hother : ∀ v name, name ≠ s.field →
      held? (fs ++ (s.field, v) :: gs) name = held? (fs ++ (s.field, inner held) :: gs) name := by
    intro v name hne
    simp [held?, List.lookup_append, List.lookup_cons, beq_false_of_ne hne]
  have hfields := ofFields?_eq_some_iff.mp hm
  have hread := h.read? (n := n) ((hown _).symm.trans ((hfields _ hname).trans hw))
  split
  · rename_i hn
    rw [if_pos hn] at hread
    rw [← kind_put n s m]
    refine ofFields?_eq_some_iff.mpr fun name hmem => ?_
    rw [lookup_put hn]
    by_cases hne : name = s.field
    · rw [hne, hown, hread, hw, Option.map_some, if_pos rfl]
    · rw [hother _ _ hne, hfields name (kind_put n s m ▸ hmem)]
      simp [hne]
  · rename_i hn
    rw [if_neg hn] at hread
    refine Option.eq_none_iff_forall_ne_some.mpr fun m' hm' => ?_
    have hkind := kind_of_ofFields? hm'
    rw [← hkind] at hm' hname
    -- A message would have a value there.
    have hvalue := ofFields?_eq_some_iff.mp hm' s.field hname
    rw [hown, hread] at hvalue
    exact lookup_eq_none_iff.mp hvalue.symm hname

theorem ofMembers?_gap (h : s.Members data) (hm : ofMembers? kind (data held) = some m)
    (hs : (m.get? s).isSome) :
    ofMembers? kind (data (.ofInt n)) = if s.Fits n then some (m.put n s) else none := by
  obtain ⟨before, after, hkey, hinner⟩ := h
  obtain ⟨k, hk, hm⟩ := Option.bind_eq_some_iff.mp hm
  obtain ⟨all, hall, hm⟩ := Option.bind_eq_some_iff.mp hm
  obtain rfl := kind_of_ofFields? hm
  obtain ⟨fs, gs, hfs, hgap⟩ := Json.fields?_gap hkey (field_mem hs) hall
  obtain rfl := Option.some.inj ((hgap _).symm.trans hall)
  rw [ofMembers?, hk, Option.bind_eq_bind, Option.bind_some, hgap, Option.bind_eq_bind, Option.bind_some]
  exact ofFields?_gap hfs hinner hm hs

theorem plain_gap (h : s.Members data) (hn : s.Fits n)
    (hheld : Json.plain heldDepth (.object (data held)) = true) :
    Json.plain heldDepth (.object (data (.ofInt n))) = true := by
  obtain ⟨before, after, -, hinner⟩ := h
  rw [heldDepth, Json.plain, Json.plainMembers_iff] at hheld ⊢
  simp only [List.forall_mem_append, List.forall_mem_cons] at hheld ⊢
  obtain ⟨hbefore, ⟨hkey, hvalue⟩, hafter⟩ := hheld
  exact ⟨hbefore, ⟨hkey, hinner.plain hn hvalue⟩, hafter⟩

/-- The kind and the fields of an object, in the order in which they stand there. -/
def ofParts? : List (String × Json) → Option Message
  | [("type", kind), ("data", .object data)] => ofMembers? kind data
  | [("data", .object data), ("type", kind)] =>
    if Json.plain heldDepth (.object data) then ofMembers? kind data else none
  | _ => none

theorem ofJson?_object (members : List (Json.Quoted × Json)) :
    ofJson? (.object members) = (Json.fields? ["type", "data"] members).bind ofParts? := rfl

/-- There is the kind beside the fields, and nothing else. -/
theorem kind_beside {fs gs : List (String × Json)} {v : Json} (hfs : fs.lookup "data" = none)
    (h : ofParts? (fs ++ ("data", v) :: gs) = some m) :
    ∃ kind, fs = [("type", kind)] ∧ gs = [] ∨ fs = [] ∧ gs = [("type", kind)] := by
  generalize hall : fs ++ ("data", v) :: gs = all at h
  unfold ofParts? at h
  split at h
  · rename_i kind data
    obtain _ | ⟨f, _ | ⟨g, fs⟩⟩ := fs
    · exact absurd (Prod.mk.inj (List.cons.inj hall).1).1 (by decide)
    · obtain ⟨rfl, hrest⟩ := List.cons.inj hall
      exact ⟨kind, .inl ⟨rfl, (List.cons.inj hrest).2⟩⟩
    · simp at hall
  · rename_i data kind
    obtain _ | ⟨f, fs⟩ := fs
    · exact ⟨kind, .inr ⟨rfl, (List.cons.inj hall).2⟩⟩
    · obtain rfl := (List.cons.inj hall).1
      simp at hfs
  · cases h

theorem ofJson?_gap (h : s.Document doc) (hm : ofJson? (doc held) = some m) (hs : (m.get? s).isSome) :
    ofJson? (doc (.ofInt n)) = if s.Fits n then some (m.put n s) else none := by
  cases h with
  | pair kind hdata => exact ofMembers?_gap hdata hm hs
  | object before after hkey hdata =>
    rename_i data
    rw [ofJson?_object] at hm ⊢
    obtain ⟨all, hall, hm⟩ := Option.bind_eq_some_iff.mp hm
    obtain ⟨fs, gs, hfs, hgap⟩ := Json.fields?_gap hkey (by decide) hall
    obtain rfl := Option.some.inj ((hgap _).symm.trans hall)
    rw [hgap, Option.bind_some]
    obtain ⟨kind, ⟨rfl, rfl⟩ | ⟨rfl, rfl⟩⟩ := kind_beside hfs hm
    · exact ofMembers?_gap hdata hm hs
    · have hparts : ∀ x, ofParts? ([] ++ ("data", .object (data x)) :: [("type", kind)]) =
          if Json.plain heldDepth (.object (data x)) then ofMembers? kind (data x) else none := fun _ => rfl
      rw [hparts] at hm ⊢
      split at hm
      · rename_i hplain
        rw [ofMembers?_gap hdata hm hs]
        by_cases hn : s.Fits n
        · rw [if_pos (plain_gap hdata hn hplain)]
        · rw [if_neg hn, ite_self]
      · cases hm

/-- What is read of the texts that have an integer in a place of a message. -/
structure Exact (s : Slot) (m : Message) (doc : Json → Json) : Prop where
  fitting : ∀ n text, Json.ofText? text = some (doc (.ofInt n)) → s.Fits n →
    ∃ m', parse? text = some m' ∧ Placed s n m m'
  outside : ∀ n text, Json.ofText? text = some (doc (.ofInt n)) → ¬ s.Fits n → parse? text = none

/-- If a message is read with some value in the place of an integer, then with every other integer
in this place it is the same message with this integer, or none is read. -/
theorem integer_exact (s : Slot) (doc : Json → Json) (held : Json) (m : Message) (h : s.Document doc)
    (hm : ofJson? (doc held) = some m) (hs : (m.get? s).isSome) : Exact s m doc where
  fitting n text htext hn :=
    ⟨m.put n s, by rw [parse?, htext, Option.bind_some, ofJson?_gap h hm hs, if_pos hn], placed_put hn hs⟩
  outside n text htext hn := by
    rw [parse?, htext, Option.bind_some, ofJson?_gap h hm hs, if_neg hn]

end Reading

/-- A stream with a gap between its bytes and with its fields before its kind. -/
def streamGap (x : Json) : Json :=
  .ofFields [("data", .ofFields [("stream_id", .ofNat 1), ("data", .array [.ofNat 104, x, .ofNat 105]),
    ("eof", .boolean false), ("compressed", .boolean false)]), ("type", .ofString "stream_data")]

theorem document_streamGap : (Slot.byte 1).Document streamGap :=
  .object [] [_] (by decide) (.intro [_] [_, _] (by decide) (.item [_] [_]))

theorem legible_streamGap (n : Int) : (streamGap (.ofInt n)).Legible := by
  have hnatural : ∀ k, (Json.ofNat k).Legible := fun k => Json.legible_ofInt k
  have hbytes : (Json.array [.ofNat 104, .ofInt n, .ofNat 105]).Legible :=
    .array (by simp [hnatural, Json.legible_ofInt])
  have hdata : (Json.ofFields [("stream_id", .ofNat 1), ("data", .array [.ofNat 104, .ofInt n, .ofNat 105]),
      ("eof", .boolean false), ("compressed", .boolean false)]).Legible :=
    Json.legible_ofFields (by simp [hbytes, hnatural, Json.Legible.boolean])
  exact Json.legible_ofFields (by simp [hdata, Json.legible_ofString])

theorem integer_exact_stream :
    (∃ m', parse? (streamGap (.ofInt 255)).compactText = some m' ∧
      Placed (.byte 1) 255 (.streamData 1 [104, 0, 105] false false) m') ∧
    parse? (streamGap (.ofInt 256)).compactText = none := by
  have hm : ofJson? (streamGap (.ofInt 0)) = some (.streamData 1 [104, 0, 105] false false) := by
    decide +kernel
  have hexact := integer_exact (.byte 1) streamGap (.ofInt 0) _ document_streamGap hm rfl
  have htext : ∀ n : Int, Json.ofText? (streamGap (.ofInt n)).compactText = some (streamGap (.ofInt n)) :=
    fun n => (legible_streamGap n).ofText?_compactText
  exact ⟨hexact.fitting 255 _ (htext 255) (by decide), hexact.outside 256 _ (htext 256) (by decide)⟩

end Message

end MeshShell
