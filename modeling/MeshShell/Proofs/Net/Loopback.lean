import MeshShell.Net.Endpoint
import MeshShell.Net.Host
import MeshShell.Proofs.Text.Trimming

/-! # The same host in another spelling

A host means the same with capital letters and with white space around it. So
the form in which endpoints are compared names this machine exactly if the host
does.
-/
namespace MeshShell

namespace Text

theorem toLower_eq_or (c : Char) :
    c.toLower = c ∨ 65 ≤ c.toNat ∧ c.toNat ≤ 90 ∧ c.toLower.toNat = c.toNat + 32 := by
  by_cases h : 65 ≤ c.toNat ∧ c.toNat ≤ 90
  · refine .inr ⟨h.1, h.2, ?_⟩
    have key : ∀ n : Fin 26, (Char.ofNat (65 + n.val)).toLower.toNat = 65 + n.val + 32 := by decide
    have hc := key ⟨c.toNat - 65, by omega⟩
    have hsum : 65 + (c.toNat - 65) = c.toNat := by omega
    simpa only [hsum, Char.ofNat_toNat] using hc
  · exact .inl (dif_neg h)

theorem toLower_congr {α : Type} {f : Char → α}
    (h : ∀ c d : Char, 65 ≤ c.toNat → c.toNat ≤ 90 → d.toNat = c.toNat + 32 → f d = f c) (c : Char) :
    f c.toLower = f c := by
  rcases toLower_eq_or c with he | ⟨hlow, hhigh, hd⟩
  · rw [he]
  · exact h c _ hlow hhigh hd

theorem toLower_toLower (c : Char) : c.toLower.toLower = c.toLower := by
  rcases toLower_eq_or c with he | ⟨hlow, hhigh, hd⟩
  · rw [he, he]
  · rcases toLower_eq_or c.toLower with he | ⟨-, habove, -⟩
    · exact he
    · omega

theorem toLower_beq {m : Char} (hm : m.toNat < 65 ∨ 90 < m.toNat ∧ m.toNat < 97 ∨ 122 < m.toNat)
    (c : Char) : (c.toLower == m) = (c == m) := by
  refine toLower_congr (f := (· == m)) ?_ c
  intro c d hlow hhigh hd
  have hc : c ≠ m := by
    rintro rfl
    omega
  have hdm : d ≠ m := by
    rintro rfl
    omega
  exact (beq_eq_false_iff_ne.mpr hdm).trans (beq_eq_false_iff_ne.mpr hc).symm

theorem isBlank_toLower (c : Char) : isBlank c.toLower = isBlank c := by
  refine toLower_congr (f := isBlank) ?_ c
  intro c d hlow hhigh hd
  unfold isBlank
  rw [hd]
  grind

theorem lower_lower (cs : List Char) : lower (lower cs) = lower cs := by
  rw [lower, lower, List.map_map]
  exact List.map_congr_left fun c _ => toLower_toLower c

theorem dropWhile_lower {p : Char → Bool} (hp : ∀ c : Char, p c.toLower = p c) (cs : List Char) :
    (lower cs).dropWhile p = lower (cs.dropWhile p) := by
  simp only [lower, List.dropWhile_map]
  congr 1
  exact congrArg (cs.dropWhile ·) (funext hp)

theorem dropRightWhile_lower {p : Char → Bool} (hp : ∀ c : Char, p c.toLower = p c)
    (cs : List Char) : dropRightWhile p (lower cs) = lower (dropRightWhile p cs) := by
  have hreverse : (lower cs).reverse = lower cs.reverse := (List.map_reverse ..).symm
  simp only [dropRightWhile, hreverse, dropWhile_lower hp]
  exact (List.map_reverse ..).symm

theorem trim_lower (cs : List Char) : trim (lower cs) = lower (trim cs) := by
  simp only [trim, dropWhile_lower isBlank_toLower, dropRightWhile_lower isBlank_toLower]

end Text

namespace Address

theorem decimalValue?_toLower (c : Char) : decimalValue? c.toLower = decimalValue? c := by
  refine Text.toLower_congr (f := decimalValue?) ?_ c
  intro c d hlow hhigh hd
  simp only [decimalValue?, Decimal.isDigit, hd]
  grind

theorem hexValue?_toLower (c : Char) : Hex.value? c.toLower = Hex.value? c := by
  refine Text.toLower_congr (f := Hex.value?) ?_ c
  intro c d hlow hhigh hd
  simp only [Hex.value?, hd]
  grind

/-- The reader finds the same in small letters, and leaves what it left in small letters. -/
def Caseless {α : Type} (r : Reader α) : Prop :=
  ∀ cs, r (Text.lower cs) = (r cs).map (Prod.map id Text.lower)

theorem leading_lower {value? : Char → Option Nat} (hv : ∀ c, value? c.toLower = value? c)
    (base n count : Nat) (cs : List Char) :
    leading base value? n count (Text.lower cs) =
      Prod.map id (Prod.map id Text.lower) (leading base value? n count cs) := by
  induction cs generalizing n count with
  | nil => rfl
  | cons c cs ih =>
    have hcons : Text.lower (c :: cs) = c.toLower :: Text.lower cs := rfl
    rw [hcons, leading, leading, hv c]
    cases value? c with
    | none => rfl
    | some d => exact ih _ _

theorem head?_lower {m : Char} (hm : m.toNat < 65 ∨ 90 < m.toNat ∧ m.toNat < 97 ∨ 122 < m.toNat)
    (cs : List Char) : (Text.lower cs).head? = some m ↔ cs.head? = some m := by
  cases cs with
  | nil => simp [Text.lower]
  | cons c cs =>
    have h : c.toLower = m ↔ c = m := by
      rw [← beq_iff_eq, Text.toLower_beq hm, beq_iff_eq]
    exact (Option.some_inj.trans h).trans Option.some_inj.symm

theorem caseless_part : Caseless part := by
  intro cs
  have hzero := head?_lower (m := '0') (by decide) cs
  unfold part
  rw [leading_lower decimalValue?_toLower]
  obtain ⟨n, count, rest⟩ := leading 10 decimalValue? 0 0 cs
  simp only [Prod.map, id, hzero]
  split <;> rfl

theorem caseless_group : Caseless group := by
  intro cs
  unfold group
  rw [leading_lower hexValue?_toLower]
  obtain ⟨n, count, rest⟩ := leading 16 Hex.value? 0 0 cs
  simp only [Prod.map, id]
  split <;> rfl

theorem caseless_mark {m : Char} (hm : m.toNat < 65 ∨ 90 < m.toNat ∧ m.toNat < 97 ∨ 122 < m.toNat) :
    Caseless (mark m) := by
  intro cs
  cases cs with
  | nil => rfl
  | cons c cs =>
    have h : m = c.toLower ↔ m = c := by
      rw [eq_comm, ← beq_iff_eq, Text.toLower_beq hm, beq_iff_eq, eq_comm]
    simp only [Text.lower, List.map_cons, mark, h]
    split <;> rfl

theorem caseless_bind {α β : Type} {r : Reader α} {next : α × List Char → Option (β × List Char)}
    (hr : Caseless r) (hn : ∀ a, Caseless fun cs => next (a, cs)) :
    Caseless fun cs => r cs >>= next := by
  intro cs
  simp only [hr cs]
  cases r cs with
  | none => rfl
  | some p => exact hn p.1 p.2

theorem caseless_dot : Caseless (mark '.') := caseless_mark (by decide)

theorem caseless_colon : Caseless (mark ':') := caseless_mark (by decide)

theorem caseless_dotted : Caseless dotted := by
  have hpart := caseless_part
  have hdot := caseless_dot
  unfold dotted
  refine caseless_bind hpart fun a => caseless_bind hdot fun _ => ?_
  refine caseless_bind hpart fun b => caseless_bind hdot fun _ => ?_
  refine caseless_bind hpart fun c => caseless_bind hdot fun _ => ?_
  exact caseless_bind hpart fun d => fun _ => rfl

theorem caseless_separated {α : Type} {r : Reader α} (hr : Caseless r) (first : Bool) :
    Caseless (separated first r) := by
  cases first with
  | true => exact hr
  | false => exact caseless_bind caseless_colon fun _ => hr

theorem groups_lower (limit : Nat) (first : Bool) (cs : List Char) :
    groups limit first (Text.lower cs) =
      Prod.map id (Prod.map id Text.lower) (groups limit first cs) := by
  induction limit generalizing first cs with
  | zero => rfl
  | succ limit ih =>
    have hdotted : (if limit = 0 then none else separated first dotted (Text.lower cs)) =
        (if limit = 0 then none else separated first dotted cs).map (Prod.map id Text.lower) := by
      split
      · rfl
      · exact caseless_separated caseless_dotted first cs
    unfold groups
    rw [hdotted, caseless_separated caseless_group first cs]
    generalize (if limit = 0 then none else separated first dotted cs) = four
    generalize separated first group cs = one
    rcases four with _ | ⟨_ | ⟨a, _ | ⟨b, _ | ⟨c, _ | ⟨d, _ | ⟨e, more⟩⟩⟩⟩⟩, rest⟩
    case succ.some.cons.cons.cons.cons.nil => rfl
    -- Without a dotted address here the run goes on with a group.
    all_goals
      rcases one with _ | ⟨g, rest'⟩
      · rfl
      · simp only [Option.map_some, Option.map_none, Prod.map, id, ih]

theorem caseless_grouped : Caseless grouped := by
  intro cs
  unfold grouped
  simp only [groups_lower]
  obtain ⟨head, ended, rest⟩ := groups 8 true cs
  simp only [Prod.map, id]
  split
  · rfl
  · split
    · rfl
    · refine caseless_bind caseless_colon (fun _ => caseless_bind caseless_colon fun _ => ?_) rest
      intro cs
      simp only [groups_lower]
      rfl

theorem parse?_lower (cs : List Char) : parse? (Text.lower cs) = parse? cs := by
  unfold parse?
  rw [caseless_dotted cs, caseless_grouped cs]
  rcases dotted cs with _ | ⟨parts, _ | ⟨c, rest⟩⟩
  · rcases grouped cs with _ | ⟨gs, _ | ⟨c, rest⟩⟩ <;> rfl
  · rfl
  · rfl

end Address

namespace Host

theorem isLoopbackName_lower (cs : List Char) : isLoopbackName (Text.lower cs) = isLoopbackName cs := by
  simp only [isLoopbackName, Text.lower_lower, Address.parse?_lower]

theorem unbracket_lower (cs : List Char) : unbracket (Text.lower cs) = Text.lower (unbracket cs) := by
  have hopen := Text.toLower_beq (m := '[') (by decide)
  have hclose := Text.toLower_beq (m := ']') (by decide)
  simp only [unbracket, Text.dropWhile_lower (p := (· == '[')) hopen,
    Text.dropRightWhile_lower (p := (· == ']')) hclose]

theorem isLoopback_normal (host : String) : isLoopback (Endpoint.normal host) = isLoopback host := by
  have htrim : Text.trim (Endpoint.normal host).toList = Text.lower (Text.trim host.toList) := by
    rw [Endpoint.normal, String.toList_ofList, Text.trim_lower, Text.trim_trim]
  rw [isLoopback, htrim, unbracket_lower, isLoopbackName_lower, isLoopback]

end Host

end MeshShell
