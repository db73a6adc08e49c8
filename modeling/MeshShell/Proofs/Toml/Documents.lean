import MeshShell.Proofs.Toml.Quotes

/-! # Documents are read back

A document of groups is read as its headers and its settings, one statement for
each line. The names in it need no quotes, and the numbers fit 64 bits.
-/
namespace MeshShell.Toml

open Printer Reader

/-- The value that is read from a setting. -/
def Printer.Setting.value : Setting → Toml
  | .text s => .text s
  | .natural n => .integer n
  | .boolean b => .boolean b

/-- A number is within the range of numbers. -/
def Printer.Setting.Fits : Setting → Prop
  | .natural n => n < 2 ^ 63
  | _ => True

namespace Printer.Setting

@[simp] theorem fits_text (s : String) : (text s).Fits := trivial

@[simp] theorem fits_boolean (b : Bool) : (boolean b).Fits := trivial

@[simp] theorem fits_word (n : UInt16) : (natural n.toNat).Fits :=
  Nat.lt_trans n.toNat_lt (by decide)

end Printer.Setting

theorem value_word {n : Nat} {c : Char} {cs : List Char} (hc : isWordChar c = true) :
    Reader.value n (c :: cs) = word (c :: cs) := by
  have hne : ∀ d : Char, isWordChar d = false → c ≠ d := fun d hd heq => by simp [heq, hd] at hc
  have hdouble := hne '"' (by decide)
  have hsingle := hne '\'' (by decide)
  have hbracket := hne '[' (by decide)
  have hbrace := hne '\x7b' (by decide)
  unfold Reader.value
  split <;> simp_all

theorem word_line {w : List Char} (hw : ∀ c ∈ w, isWordChar c = true) (hdate : Moment.isDate w = false)
    (rest : List Char) : word (w ++ '\n' :: rest) = (·, '\n' :: rest) <$> ofWord? w := by
  have htake : (w ++ '\n' :: rest).takeWhile isWordChar = w := by
    rw [List.takeWhile_append_of_pos hw]
    simp [isWordChar]
  have hdrop : (w ++ '\n' :: rest).dropWhile isWordChar = '\n' :: rest := by
    rw [List.dropWhile_append_of_pos hw]
    simp [isWordChar]
  unfold word
  simp [htake, hdrop, hdate]

theorem afterDate?_eq_none {w : List Char} (h : '-' ∉ w) : Moment.afterDate? w = none := by
  unfold Moment.afterDate?
  split
  · simp at h
  · rfl

theorem afterTime?_eq_none {w : List Char} (h : ':' ∉ w) : Moment.afterTime? w = none := by
  unfold Moment.afterTime?
  split
  · simp at h
  · rfl

theorem not_mem_digits {c : Char} (hc : Decimal.isDigit c = false) (n : Nat) : c ∉ Decimal.digits n := by
  intro hm
  rw [Decimal.isDigit_of_mem hm] at hc
  cases hc

theorem ungroup?_digits {ds : List Char} (hne : ds ≠ []) (hds : ∀ c ∈ ds, Decimal.isDigit c = true) :
    Number.ungroup? Decimal.isDigit ds = some ds := by
  induction ds with
  | nil => exact absurd rfl hne
  | cons c ds ih =>
    have hc := hds c List.mem_cons_self
    have htail : ∀ d ∈ ds, Decimal.isDigit d = true := fun d hd => hds d (List.mem_cons_of_mem c hd)
    cases ds with
    | nil => simp [Number.ungroup?, hc]
    | cons d ds =>
      have hrest := ih (List.cons_ne_nil d ds) htail
      have hd : d ≠ '_' := by
        rintro rfl
        exact absurd (htail '_' List.mem_cons_self) (by decide)
      rw [Number.ungroup?]
      · simp [hc, hrest]
      · exact hd

theorem integer?_decimal {ds : List Char} (hbase : ∀ c rest, ds ≠ '0' :: c :: rest)
    (hsigned : Number.signed ds = (false, ds)) (hwhole : Number.whole? ds = some ds) :
    Number.integer? ds =
      if Number.inRange (Decimal.value ds) then some (Decimal.value ds : Int) else none := by
  unfold Number.integer?
  split
  · exact absurd rfl (hbase 'x' _)
  · exact absurd rfl (hbase 'o' _)
  · exact absurd rfl (hbase 'b' _)
  · rw [hsigned]
    dsimp only
    rw [hwhole, Option.bind_eq_bind, Option.bind_some, if_neg Bool.false_ne_true]

theorem whole?_digits (n : Nat) : Number.whole? (Decimal.digits n) = some (Decimal.digits n) := by
  rw [Number.whole?, ungroup?_digits (Decimal.digits_ne_nil n) fun c => Decimal.isDigit_of_mem]
  have hzero : ¬ (1 < (Decimal.digits n).length ∧ (Decimal.digits n).head? = some '0') := by
    rintro ⟨hlength, hhead⟩
    obtain ⟨rest, hrest⟩ := List.head?_eq_some_iff.mp hhead
    rw [hrest, Decimal.eq_nil_of_digits hrest] at hlength
    simp at hlength
  simp only [Option.bind_eq_bind, Option.bind_some, if_neg hzero]

theorem signed_digits (n : Nat) : Number.signed (Decimal.digits n) = (false, Decimal.digits n) := by
  unfold Number.signed
  split
  · rename_i rest heq
    exact absurd (heq ▸ List.mem_cons_self) (not_mem_digits (c := '-') (by decide) n)
  · rename_i rest heq
    exact absurd (heq ▸ List.mem_cons_self) (not_mem_digits (c := '+') (by decide) n)
  · rfl

theorem integer?_digits {n : Nat} (h : n < 2 ^ 63) :
    Number.integer? (Decimal.digits n) = some (n : Int) := by
  have hrange : Number.inRange n = true := by
    have hpower : Int.pow 2 63 = 9223372036854775808 := by decide
    simp only [Number.inRange, hpower, Bool.and_eq_true, decide_eq_true_eq]
    omega
  have hbase : ∀ c rest, Decimal.digits n ≠ '0' :: c :: rest := fun c rest heq =>
    List.cons_ne_nil c rest (Decimal.eq_nil_of_digits heq)
  rw [integer?_decimal hbase (signed_digits n) (whole?_digits n), Decimal.value_digits, if_pos hrange]

theorem ofWord?_digits {n : Nat} (h : n < 2 ^ 63) : ofWord? (Decimal.digits n) = some (.integer n) := by
  have htrue : Decimal.digits n ≠ "true".toList := by
    intro heq
    exact not_mem_digits (c := 't') (by decide) n (heq ▸ by decide)
  have hfalse : Decimal.digits n ≠ "false".toList := by
    intro heq
    exact not_mem_digits (c := 'f') (by decide) n (heq ▸ by decide)
  have hmoment : Moment.isMoment (Decimal.digits n) = false := by
    rw [Moment.isMoment, afterDate?_eq_none (not_mem_digits (by decide) n),
      afterTime?_eq_none (not_mem_digits (by decide) n)]
    rfl
  rw [ofWord?, if_neg htrue, if_neg hfalse, if_neg (by simp [hmoment]), integer?_digits h]

theorem clear_line (rest : List Char) : Clear ('\n' :: rest) := by simp [Clear]

theorem quoted_head (cs : List Char) : ∃ c more, quoted cs = c :: more ∧ (c = '"' ∨ c = '\'') := by
  unfold quoted
  split
  · exact ⟨'"', _, rfl, .inl rfl⟩
  · exact ⟨'\'', _, rfl, .inr rfl⟩
  · exact ⟨'"', _, rfl, .inl rfl⟩
  · exact ⟨'\'', _, rfl, .inr rfl⟩

theorem isGap_digit {c : Char} (h : Decimal.isDigit c = true) : Quoted.isGap c = false :=
  Decimal.forall_digit (P := fun c => Quoted.isGap c = false) (by decide) h

theorem skipGaps_setting (s : Setting) (rest : List Char) :
    skipGaps (' ' :: (setting s ++ rest)) = setting s ++ rest := by
  have hhead : ∃ c more, setting s = c :: more ∧ Quoted.isGap c = false := by
    cases s with
    | text s =>
      obtain ⟨c, more, hcs, rfl | rfl⟩ := quoted_head s.toList <;> exact ⟨_, more, hcs, by decide⟩
    | natural n =>
      obtain ⟨c, more, hcs⟩ := List.exists_cons_of_ne_nil (Decimal.digits_ne_nil n)
      exact ⟨c, more, hcs, isGap_digit (Decimal.isDigit_of_mem (hcs ▸ List.mem_cons_self))⟩
    | boolean b => cases b <;> exact ⟨_, _, rfl, by decide⟩
  obtain ⟨c, more, hcs, hgap⟩ := hhead
  rw [hcs]
  simp [skipGaps, show Quoted.isGap ' ' = true from rfl, hgap]

/-- A value is read up to the end of its line. -/
theorem value_setting {s : Setting} (h : s.Fits) (n : Nat) (rest : List Char) :
    Reader.value n (setting s ++ '\n' :: rest) = some (s.value, '\n' :: rest) := by
  cases s with
  | text s =>
    have hread := read_quoted s.toList (clear_line rest)
    obtain ⟨c, more, hcs, hc⟩ := quoted_head s.toList
    rw [setting, hcs]
    rw [hcs, List.cons_append] at hread
    rcases hc with rfl | rfl <;> simp [Reader.value, hread, Setting.value]
  | natural k =>
    have hword := word_line (w := Decimal.digits k)
      (fun c hc => Decimal.forall_digit (P := fun c => isWordChar c = true) (by decide)
        (Decimal.isDigit_of_mem hc))
      (by rw [Moment.isDate, afterDate?_eq_none (not_mem_digits (by decide) k)]; rfl) rest
    rw [ofWord?_digits h] at hword
    obtain ⟨c, cs, hcs⟩ := List.exists_cons_of_ne_nil (Decimal.digits_ne_nil k)
    have hfirst : isWordChar c = true :=
      Decimal.forall_digit (P := fun c => isWordChar c = true) (by decide)
        (Decimal.isDigit_of_mem (hcs ▸ List.mem_cons_self))
    rw [setting, hcs, List.cons_append, value_word hfirst, ← List.cons_append, ← hcs]
    exact hword
  | boolean b =>
    cases b with
    | false =>
      have hword := word_line (w := "false".toList) (List.all_eq_true.mp rfl) (by decide) rest
      exact (value_word (by decide)).trans hword
    | true =>
      have hword := word_line (w := "true".toList) (List.all_eq_true.mp rfl) (by decide) rest
      exact (value_word (by decide)).trans hword

/-- A name that needs no quotes. -/
def Bare (name : String) : Prop := name.toList ≠ [] ∧ name.toList.all isBare = true

instance (name : String) : Decidable (Bare name) := inferInstanceAs (Decidable (_ ∧ _))

theorem isBare_ne {c : Char} (h : isBare c = true) {d : Char} (hd : isBare d = false) : c ≠ d := by
  rintro rfl
  rw [h] at hd
  cases hd

/-- A bare name up to where it ends. -/
theorem part_bare {name : String} (h : Bare name) {rest : List Char}
    (hrest : ∀ c ∈ rest.head?, isBare c = false) : part (name.toList ++ rest) = some (name, rest) := by
  have hall := List.all_eq_true.mp h.2
  have htake : (name.toList ++ rest).takeWhile isBare = name.toList := by
    rw [List.takeWhile_append_of_pos hall]
    cases rest with
    | nil => simp
    | cons c rest => simp [hrest c rfl]
  have hdrop : (name.toList ++ rest).dropWhile isBare = rest := by
    rw [List.dropWhile_append_of_pos hall]
    cases rest with
    | nil => simp
    | cons c rest => simp [hrest c rfl]
  obtain ⟨c, cs, hcs⟩ := List.exists_cons_of_ne_nil h.1
  have hc : isBare c = true := hall c (hcs ▸ List.mem_cons_self)
  unfold part
  split
  · rename_i heq
    rw [hcs] at heq
    exact absurd (List.cons.inj heq).1 (isBare_ne hc (by decide))
  · rename_i heq
    rw [hcs] at heq
    exact absurd (List.cons.inj heq).1 (isBare_ne hc (by decide))
  · simp [htake, hdrop, h.1]

theorem skipGaps_bare {name : String} (h : Bare name) (rest : List Char) :
    skipGaps (name.toList ++ rest) = name.toList ++ rest := by
  obtain ⟨c, cs, hcs⟩ := List.exists_cons_of_ne_nil h.1
  have hc : isBare c = true := List.all_eq_true.mp h.2 c (hcs ▸ List.mem_cons_self)
  have hgap : Quoted.isGap c = false := by
    simp [Quoted.isGap, isBare_ne hc (d := ' ') (by decide), isBare_ne hc (d := '\t') (by decide)]
  simp [skipGaps, hcs, hgap]

theorem key_bare {name : String} (h : Bare name) {rest more : List Char}
    (hrest : ∀ c ∈ rest.head?, isBare c = false) (hmore : skipGaps rest = more)
    (hpoint : ∀ after, more ≠ '.' :: after) : key limit (name.toList ++ rest) = some ([name], more) := by
  rw [limit, key, skipGaps_bare h, part_bare h hrest]
  simp only [Option.bind_eq_bind, Option.bind_some, hmore]
  rfl

theorem trailing?_newline (rest : List Char) : trailing? ('\n' :: rest) = some rest := by
  simp [trailing?, skipGaps, Quoted.isGap, lineEnd?]

theorem statement_line {name : String} {s : Setting} (hname : Bare name) (hs : s.Fits)
    (rest : List Char) :
    statement (line name s ++ rest) = some (.assign [name] s.value, rest) := by
  have hkey : key limit (name.toList ++ ' ' :: '=' :: ' ' :: (setting s ++ '\n' :: rest)) =
      some ([name], '=' :: ' ' :: (setting s ++ '\n' :: rest)) :=
    key_bare hname (by simp [isBare]) (by simp [skipGaps, Quoted.isGap]) (by simp)
  have hpair : pair (Reader.value limit) (line name s ++ rest) = some (([name], s.value), '\n' :: rest) := by
    have hsplit : line name s ++ rest =
        name.toList ++ ' ' :: '=' :: ' ' :: (setting s ++ '\n' :: rest) := by simp [line]
    rw [hsplit, pair, hkey, Option.bind_eq_bind, Option.bind_some]
    simp [skipGaps_setting, value_setting hs]
  obtain ⟨c, cs, hcs⟩ := List.exists_cons_of_ne_nil hname.1
  have hc : isBare c = true := List.all_eq_true.mp hname.2 c (hcs ▸ List.mem_cons_self)
  have hbracket : ∀ cs, line name s ++ rest ≠ '[' :: cs := by
    intro cs heq
    rw [line, hcs] at heq
    exact isBare_ne hc (by decide) (List.cons.inj heq).1
  rw [statement, hpair, Option.bind_eq_bind, Option.bind_some]
  · dsimp only
    rw [trailing?_newline]
    rfl
  · exact fun cs => hbracket ('[' :: cs)
  · exact hbracket

theorem statement_header {name : String} (hname : Bare name) (rest : List Char) :
    statement ('[' :: (name.toList ++ ']' :: '\n' :: rest)) = some (.header [name], rest) := by
  have hkey : key limit (name.toList ++ ']' :: '\n' :: rest) = some ([name], ']' :: '\n' :: rest) :=
    key_bare hname (by simp [isBare]) (by simp [skipGaps, Quoted.isGap]) (by simp)
  obtain ⟨c, cs, hcs⟩ := List.exists_cons_of_ne_nil hname.1
  have hc : isBare c = true := List.all_eq_true.mp hname.2 c (hcs ▸ List.mem_cons_self)
  rw [statement, hkey, Option.bind_eq_bind, Option.bind_some]
  · simp [closed?, trailing?_newline]
  · intro cs heq
    rw [hcs] at heq
    exact isBare_ne hc (by decide) (List.cons.inj heq).1

theorem statement_rowHeader {name : String} (hname : Bare name) (rest : List Char) :
    statement ('[' :: '[' :: (name.toList ++ ']' :: ']' :: '\n' :: rest)) =
      some (.rowHeader [name], rest) := by
  have hkey : key limit (name.toList ++ ']' :: ']' :: '\n' :: rest) =
      some ([name], ']' :: ']' :: '\n' :: rest) :=
    key_bare hname (by simp [isBare]) (by simp [skipGaps, Quoted.isGap]) (by simp)
  rw [statement, hkey, Option.bind_eq_bind, Option.bind_some]
  simp [closed?, trailing?_newline]

/-- The statement of a header. -/
def headerOf (g : Group) : Statement := if g.isRow then .rowHeader [g.name] else .header [g.name]

def statementsOf (g : Group) : List Statement :=
  headerOf g :: g.settings.map fun (name, s) => .assign [name] s.value

/-- Every part of a group can be written without quotes around names and is read as it is. -/
structure WellFormed (g : Group) : Prop where
  name : Bare g.name
  settings : ∀ p ∈ g.settings, Bare p.1 ∧ p.2.Fits

theorem header_eq (g : Group) : ∃ cs, header g = '[' :: cs := by
  unfold header
  split <;> exact ⟨_, rfl⟩

theorem statement_groupHeader {g : Group} (h : Bare g.name) (rest : List Char) :
    statement (header g ++ rest) = some (headerOf g, rest) := by
  unfold header headerOf
  split
  · simpa using statement_rowHeader h rest
  · simpa using statement_header h rest

/-- The text is read as the given statements, whatever follows it. The fuel lasts for what follows. -/
def Yields (cs : List Char) (ss : List Statement) : Prop :=
  ∀ n rest, (cs ++ rest).length < n →
    ∃ m, rest.length < m ∧ statements n (cs ++ rest) = (ss ++ ·) <$> statements m rest

namespace Yields

variable {cs ds : List Char} {ss ts : List Statement} {s : Statement}

theorem nil : Yields [] [] := fun n rest hn => ⟨n, hn, by simp⟩

theorem append (h : Yields cs ss) (h' : Yields ds ts) : Yields (cs ++ ds) (ss ++ ts) := by
  intro n rest hn
  rw [List.append_assoc] at hn ⊢
  obtain ⟨m, hm, hread⟩ := h n (ds ++ rest) hn
  obtain ⟨k, hk, hmore⟩ := h' m rest hm
  refine ⟨k, hk, ?_⟩
  rw [hread, hmore]
  simp [Function.comp_def]

theorem newline (h : Yields cs ss) : Yields ('\n' :: cs) ss := by
  intro n rest hn
  cases n with
  | zero => simp at hn
  | succ n =>
    obtain ⟨m, hm, hread⟩ := h n rest (by simpa using hn)
    refine ⟨m, hm, ?_⟩
    rw [← hread]
    simp [statements, skipGaps, Quoted.isGap]

/-- A statement that starts with a bracket or with a bare name. -/
theorem of_statement {c : Char} (hc : isBare c = true ∨ c = '[')
    (h : ∀ rest, statement (c :: cs ++ rest) = some (s, rest)) : Yields (c :: cs) [s] := by
  intro n rest hn
  have hne : ∀ d, isBare d = false → d ≠ '[' → c ≠ d := by
    intro d hd hbracket heq
    rcases hc with hc | hc
    · exact isBare_ne hc hd heq
    · exact hbracket (heq ▸ hc)
  have hgap : Quoted.isGap c = false := by
    simp [Quoted.isGap, hne ' ' (by decide) (by decide), hne '\t' (by decide) (by decide)]
  have hskip : skipGaps (c :: cs ++ rest) = c :: cs ++ rest := by simp [skipGaps, hgap]
  cases n with
  | zero => simp at hn
  | succ n =>
    refine ⟨n, by simp at hn; omega, ?_⟩
    conv_lhs => unfold statements
    rw [hskip]
    split
    · rename_i heq
      cases heq
    · rename_i heq
      exact absurd (List.cons.inj heq).1 (hne '\n' (by decide) (by decide))
    · rename_i heq
      exact absurd (List.cons.inj heq).1 (hne '\x0d' (by decide) (by decide))
    · rename_i heq
      exact absurd (List.cons.inj heq).1 (hne '#' (by decide) (by decide))
    · rw [h, Option.bind_eq_bind, Option.bind_some]
      dsimp only
      cases statements n rest <;> rfl

theorem line {name : String} {s : Setting} (hname : Bare name) (hs : s.Fits) :
    Yields (Printer.line name s) [.assign [name] s.value] := by
  obtain ⟨c, cs, hcs⟩ := List.exists_cons_of_ne_nil hname.1
  have hc : isBare c = true := List.all_eq_true.mp hname.2 c (hcs ▸ List.mem_cons_self)
  have hline : ∀ rest, statement (Printer.line name s ++ rest) = _ := statement_line hname hs
  have hsplit : Printer.line name s = c :: (cs ++ " = ".toList ++ setting s ++ ['\n']) := by
    simp [Printer.line, hcs]
  rw [hsplit] at hline ⊢
  exact of_statement (.inl hc) hline

theorem lines {settings : List (String × Setting)} (h : ∀ p ∈ settings, Bare p.1 ∧ p.2.Fits) :
    Yields (settings.flatMap fun (name, s) => Printer.line name s)
      (settings.map fun (name, s) => .assign [name] s.value) := by
  induction settings with
  | nil => exact nil
  | cons p settings ih =>
    obtain ⟨hname, hs⟩ := h p List.mem_cons_self
    exact (line hname hs).append (ih fun q hq => h q (List.mem_cons_of_mem p hq))

theorem group {g : Group} (h : WellFormed g) : Yields (Printer.group g) (statementsOf g) := by
  have hheader : Yields (header g) [headerOf g] := by
    have hread : ∀ rest, statement (header g ++ rest) = _ := statement_groupHeader h.name
    obtain ⟨cs, hcs⟩ := header_eq g
    rw [hcs] at hread ⊢
    exact of_statement (.inr rfl) hread
  exact hheader.append (lines h.settings)

theorem document {gs : List Group} (h : ∀ g ∈ gs, WellFormed g) :
    Yields (Printer.document gs) (gs.flatMap statementsOf) := by
  induction gs with
  | nil => exact nil
  | cons g gs ih =>
    have hrest := ih fun g' hg => h g' (List.mem_cons_of_mem g hg)
    have hfirst := group (h g List.mem_cons_self)
    cases gs with
    | nil => simpa [Printer.document] using hfirst
    | cons g' gs => exact hfirst.append hrest.newline

end Yields

theorem document_groups {gs : List Group} (h : ∀ g ∈ gs, WellFormed g) :
    Reader.document (Printer.document gs) = some (gs.flatMap statementsOf) := by
  have hmark : dropMark (Printer.document gs) = Printer.document gs := by
    cases gs with
    | nil => rfl
    | cons g gs =>
      obtain ⟨cs, hcs⟩ := header_eq g
      cases gs <;> simp [Printer.document, Printer.group, hcs, dropMark]
  obtain ⟨m, hm, hread⟩ := Yields.document h ((Printer.document gs).length + 1) [] (by simp)
  obtain ⟨k, rfl⟩ := Nat.exists_eq_add_of_lt hm
  rw [Reader.document, hmark]
  rw [List.append_nil] at hread
  rw [hread]
  simp [statements, skipGaps]

end MeshShell.Toml
