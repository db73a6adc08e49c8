import MeshShell.Proofs.Mesh.HexOrder
import MeshShell.Proofs.Text.Trimming

/-! # Reading hexadecimal texts

Pairs of hexadecimal digits stand for bytes, and in small letters they are what
is written for these bytes. So the text of a destination is read in either case
and with white space around it. Of any other text it is told whether it stands
for another number of bytes or for none at all.
-/
namespace MeshShell

namespace Hex

/-- The digits of base sixteen, in either case. -/
def IsDigit (c : Char) : Prop :=
  '0' ≤ c ∧ c ≤ '9' ∨ 'a' ≤ c ∧ c ≤ 'f' ∨ 'A' ≤ c ∧ c ≤ 'F'

instance (c : Char) : Decidable (IsDigit c) := inferInstanceAs (Decidable (_ ∨ _))

theorem isDigit_iff {c : Char} : IsDigit c ↔ 48 ≤ c.toNat ∧ c.toNat ≤ 57 ∨
    97 ≤ c.toNat ∧ c.toNat ≤ 102 ∨ 65 ≤ c.toNat ∧ c.toNat ≤ 70 :=
  Iff.rfl

theorem value?_isSome_iff {c : Char} : (value? c).isSome ↔ IsDigit c := by
  rw [isDigit_iff]
  simp only [value?, Bool.and_eq_true, decide_eq_true_eq]
  grind

theorem forall_digit {P : Char → Prop}
    (h : ∀ k : Fin 103, IsDigit (Char.ofNat k.val) → P (Char.ofNat k.val)) {c : Char}
    (hc : IsDigit c) : P c := by
  have hlt : c.toNat < 103 := by
    rw [isDigit_iff] at hc
    omega
  have hdigit := h ⟨c.toNat, hlt⟩
  rw [Char.ofNat_toNat] at hdigit
  exact hdigit hc

theorem IsDigit.not_isBlank {c : Char} (h : IsDigit c) : Text.isBlank c = false :=
  forall_digit (P := fun c => Text.isBlank c = false) (by decide) h

theorem toLower_of_value? {c : Char} {n : Nat} (h : value? c = some n) :
    c.toLower = digit n ∧ n < 16 :=
  forall_digit (P := fun c => ∀ n ∈ value? c, c.toLower = digit n ∧ n < 16) (by decide)
    (value?_isSome_iff.mp (Option.isSome_of_eq_some h)) n h

theorem isDigit_digit (n : Nat) : IsDigit (digit n) :=
  value?_isSome_iff.mp (by rw [value?_digit, Option.isSome_some])

theorem length_encode (bytes : Bytes) : (encode bytes).length = 2 * bytes.length := by
  induction bytes with
  | nil => rfl
  | cons b bs ih => simp only [encode, List.length_cons, ih, Nat.mul_succ]

theorem isDigit_of_mem_encode {c : Char} {bytes : Bytes} (h : c ∈ encode bytes) : IsDigit c := by
  induction bytes with
  | nil => cases h
  | cons b bs ih =>
    simp only [encode, List.mem_cons] at h
    rcases h with rfl | rfl | h
    · exact isDigit_digit _
    · exact isDigit_digit _
    · exact ih h

theorem decode?_cons_eq_some_iff {high low : Char} {rest : List Char} {bytes : Bytes} :
    decode? (high :: low :: rest) = some bytes ↔ ∃ m n bs, value? high = some m ∧
      value? low = some n ∧ decode? rest = some bs ∧ UInt8.ofNat (16 * m + n) :: bs = bytes := by
  simp [decode?, Option.bind_eq_some_iff]

theorem encode_cons {m n : Nat} (hm : m < 16) (hn : n < 16) (bs : Bytes) :
    encode (UInt8.ofNat (16 * m + n) :: bs) = digit m :: digit n :: encode bs := by
  have hlt : 16 * m + n < 256 := by omega
  have hbyte : (UInt8.ofNat (16 * m + n)).toNat = 16 * m + n := UInt8.toNat_ofNat_of_lt hlt
  have hhigh : (16 * m + n) / 16 = m := by omega
  have hlow : digit (16 * m + n) = digit n := (digit_eq_digit_iff _ _).mpr (by omega)
  rw [encode, hbyte, hhigh, hlow]

theorem lower_of_decode? {cs : List Char} {bytes : Bytes} (h : decode? cs = some bytes) :
    Text.lower cs = encode bytes := by
  induction cs using decode?.induct generalizing bytes with
  | case1 =>
    obtain rfl := Option.some.inj h
    rfl
  | case2 c => cases h
  | case3 high low rest ih =>
    obtain ⟨m, n, bs, hhigh, hlow, hrest, rfl⟩ := decode?_cons_eq_some_iff.mp h
    obtain ⟨hm, hm'⟩ := toLower_of_value? hhigh
    obtain ⟨hn, hn'⟩ := toLower_of_value? hlow
    rw [encode_cons hm' hn', ← hm, ← hn, ← ih hrest]
    rfl

/-- Every text that is made of pairs of digits is read, and no other. -/
theorem exists_decode?_iff {cs : List Char} :
    (∃ bytes, decode? cs = some bytes) ↔ cs.length % 2 = 0 ∧ ∀ c ∈ cs, IsDigit c := by
  induction cs using decode?.induct with
  | case1 => simp [decode?]
  | case2 c => simp [decode?]
  | case3 high low rest ih =>
    have hlength : (high :: low :: rest).length % 2 = rest.length % 2 := by
      simp only [List.length_cons]
      omega
    rw [hlength, List.forall_mem_cons, List.forall_mem_cons, ← value?_isSome_iff, ← value?_isSome_iff]
    simp only [decode?_cons_eq_some_iff, Option.isSome_iff_exists]
    constructor
    · rintro ⟨_, m, n, bs, hhigh, hlow, hrest, rfl⟩
      have hpairs := ih.mp ⟨bs, hrest⟩
      exact ⟨hpairs.1, ⟨m, hhigh⟩, ⟨n, hlow⟩, hpairs.2⟩
    · rintro ⟨heven, ⟨m, hhigh⟩, ⟨n, hlow⟩, hdigits⟩
      obtain ⟨bs, hrest⟩ := ih.mpr ⟨heven, hdigits⟩
      exact ⟨_, m, n, bs, hhigh, hlow, hrest, rfl⟩

theorem length_of_decode? {cs : List Char} {bytes : Bytes} (h : decode? cs = some bytes) :
    cs.length = 2 * bytes.length := by
  rw [← length_encode, ← lower_of_decode? h, Text.lower, List.length_map]

theorem exists_decode?_length_iff {cs : List Char} {n : Nat} :
    (∃ bytes, decode? cs = some bytes ∧ bytes.length = n) ↔
      cs.length = 2 * n ∧ ∀ c ∈ cs, IsDigit c := by
  constructor
  · rintro ⟨bytes, h, rfl⟩
    exact ⟨length_of_decode? h, (exists_decode?_iff.mp ⟨bytes, h⟩).2⟩
  · rintro ⟨hlength, hdigits⟩
    obtain ⟨bytes, h⟩ := exists_decode?_iff.mpr ⟨by omega, hdigits⟩
    have hread := length_of_decode? h
    exact ⟨bytes, h, by omega⟩

theorem decode?_eq_none_iff {cs : List Char} :
    decode? cs = none ↔ cs.length % 2 = 1 ∨ ∃ c ∈ cs, ¬ IsDigit c := by
  have hnone : decode? cs = none ↔ ¬ ∃ bytes, decode? cs = some bytes := by
    rw [Option.eq_none_iff_forall_ne_some, not_exists]
  have hdigits : (∃ c ∈ cs, ¬ IsDigit c) ↔ ¬ ∀ c ∈ cs, IsDigit c := by
    simp only [not_forall, exists_prop]
  rw [hnone, exists_decode?_iff, not_and_or, Nat.mod_two_not_eq_zero, hdigits]

end Hex

namespace Destination

variable {s : String}

theorem parse_ok_iff {d : Destination} :
    parse s = .ok d ↔ Hex.decode? (Text.trim s.toList) = some d.bytes := by
  obtain ⟨bytes, hbytes⟩ := d
  unfold parse
  split
  · rename_i hnone
    rw [hnone]
    exact iff_of_false nofun nofun
  · rename_i found hfound
    rw [hfound, Option.some.injEq]
    split
    · rw [Except.ok.injEq, Destination.mk.injEq]
    · rename_i hlength
      refine iff_of_false nofun ?_
      rintro rfl
      exact hlength hbytes

theorem parse_wrongLength_iff {n : Nat} : parse s = .error (.wrongLength n) ↔
    (∃ bytes, Hex.decode? (Text.trim s.toList) = some bytes ∧ bytes.length = n) ∧ n ≠ 16 := by
  unfold parse
  split
  · rename_i hnone
    simp [hnone]
  · rename_i found hfound
    have hcount : (∃ bytes, Hex.decode? (Text.trim s.toList) = some bytes ∧ bytes.length = n) ↔
        found.length = n := by
      rw [hfound]
      simp
    rw [hcount]
    split
    · rename_i hlength
      refine iff_of_false nofun ?_
      rintro ⟨rfl, hn⟩
      exact hn hlength
    · rename_i hlength
      rw [Except.error.injEq, HashError.wrongLength.injEq]
      constructor
      · rintro rfl
        exact ⟨rfl, hlength⟩
      · exact And.left

theorem parse_invalidHex_iff {u : String} : parse s = .error (.invalidHex u) ↔
    u = s ∧ Hex.decode? (Text.trim s.toList) = none := by
  unfold parse
  split
  · rename_i hnone
    simp [hnone, eq_comm]
  · rename_i found hfound
    rw [hfound]
    split <;> exact iff_of_false nofun nofun

theorem exists_parse_iff : (∃ d, parse s = .ok d) ↔
    (Text.trim s.toList).length = 32 ∧ ∀ c ∈ Text.trim s.toList, Hex.IsDigit c := by
  rw [← @Hex.exists_decode?_length_iff (Text.trim s.toList) 16]
  constructor
  · rintro ⟨d, hd⟩
    exact ⟨d.bytes, parse_ok_iff.mp hd, d.length_eq⟩
  · rintro ⟨bytes, hbytes, hlength⟩
    exact ⟨⟨bytes, hlength⟩, parse_ok_iff.mpr hbytes⟩

theorem text_of_parse {d : Destination} (h : parse s = .ok d) :
    d.text = String.ofList (Text.lower (Text.trim s.toList)) := by
  rw [Hex.lower_of_decode? (parse_ok_iff.mp h)]
  rfl

theorem parse_text (d : Destination) : parse d.text = .ok d := by
  have htrim : Text.trim (Hex.encode d.bytes) = Hex.encode d.bytes :=
    Text.trim_of_not_blank fun _ hc => (Hex.isDigit_of_mem_encode hc).not_isBlank
  rw [parse_ok_iff, text, Hex.text, String.toList_ofList, htrim, Hex.decode?_encode]

/-- What reading a text comes to if `part` is what trimming leaves of it. -/
structure ReadAs (s : String) (part : List Char) : Prop where
  trimmed : ∀ inner, Text.Stripped s.toList inner ↔ inner = part
  /-- There is a destination for every 32 digits. -/
  accepted : (∃ d, parse s = .ok d) ↔ part.length = 32 ∧ ∀ c ∈ part, Hex.IsDigit c
  written : ∀ d, parse s = .ok d → d.text = String.ofList (Text.lower part)
  /-- Digits for another number of bytes are counted. -/
  miscounted : ∀ n, parse s = .error (.wrongLength n) ↔
    (part.length = 2 * n ∧ ∀ c ∈ part, Hex.IsDigit c) ∧ n ≠ 16
  /-- Any other text is refused, and given back with its white space. -/
  refused : ∀ given, parse s = .error (.invalidHex given) ↔
    given = s ∧ (part.length % 2 = 1 ∨ ∃ c ∈ part, ¬ Hex.IsDigit c)

/-- It is exact which texts are read and as what, the text of a destination gives it back, and
destinations come in the order of their texts. -/
theorem text_exact : (∀ s : String, ReadAs s (Text.trim s.toList)) ∧
    (∀ d : Destination, parse d.text = .ok d) ∧ ∀ a b : Destination, a < b ↔ a.text < b.text := by
  refine ⟨fun s => ?_, parse_text, fun a b => (text_lt_text_iff a b).symm⟩
  exact {
    trimmed := fun _ => Text.stripped_iff
    accepted := exists_parse_iff
    written := fun _ => text_of_parse
    miscounted := fun _ => by rw [parse_wrongLength_iff, Hex.exists_decode?_length_iff]
    refused := fun _ => by rw [parse_invalidHex_iff, Hex.decode?_eq_none_iff] }

end Destination

end MeshShell
