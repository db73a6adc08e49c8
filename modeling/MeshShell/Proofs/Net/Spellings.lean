import MeshShell.Proofs.Net.Loopback
import Mathlib.Logic.Function.Iterate

/-! # Spellings of a host

A host can be written with white space around it, with letters in another case
and in brackets. Whether it names this machine is the same for all of these. The
form in which endpoints are compared looks past the white space and the case,
but every pair of brackets stays in it.
-/
namespace MeshShell

namespace Text

theorem mem_lower {m : Char} (hm : m.toNat < 65 ∨ 90 < m.toNat ∧ m.toNat < 97 ∨ 122 < m.toNat)
    {cs : List Char} : m ∈ lower cs ↔ m ∈ cs := by
  have hsame : ∀ c : Char, c.toLower = m ↔ c = m := by
    intro c
    rw [← beq_iff_eq, toLower_beq hm, beq_iff_eq]
  simp [lower, hsame]

theorem toLower_eq_self_iff {c : Char} : c.toLower = c ↔ c.isUpper = false := by
  have hupper : c.isUpper = decide (c.val ≥ 'A'.val ∧ c.val ≤ 'Z'.val) := rfl
  rw [← Bool.not_eq_true, hupper, decide_eq_true_iff]
  constructor
  · intro h hu
    have hval : c.val + 32 = c.val := (congrArg Char.val (dif_pos hu)).symm.trans (congrArg Char.val h)
    exact absurd (UInt32.add_eq_left.mp hval) (by decide)
  · exact fun h => dif_neg h

theorem lower_eq_self_iff {cs : List Char} : lower cs = cs ↔ ∀ c ∈ cs, c.isUpper = false := by
  have hmap : lower cs = cs ↔ cs.map Char.toLower = cs.map id := by
    rw [List.map_id]
    rfl
  rw [hmap, List.map_inj_left]
  exact forall₂_congr fun c _ => toLower_eq_self_iff

end Text

namespace Endpoint

theorem toList_normal (host : String) :
    (normal host).toList = Text.lower (Text.trim host.toList) := String.toList_ofList

theorem colon_mem_normal {host : String} : ':' ∈ (normal host).toList ↔ ':' ∈ host.toList := by
  rw [toList_normal, Text.mem_lower (by decide), Text.mem_trim (by decide)]

theorem normal_eq_self_iff {host : String} : normal host = host ↔
    Text.trim host.toList = host.toList ∧ ∀ c ∈ host.toList, c.isUpper = false := by
  rw [← String.toList_inj, toList_normal, ← Text.lower_eq_self_iff]
  constructor
  · intro h
    obtain ⟨before, after, -, -, hcs⟩ := Text.exists_trim host.toList
    have hinfix : Text.trim host.toList <:+: host.toList := ⟨before, after, hcs⟩
    have hlength : (Text.trim host.toList).length = host.toList.length := by
      simpa [Text.lower] using congrArg List.length h
    have hsame := hinfix.eq_of_length hlength
    exact ⟨hsame, by rwa [hsame] at h⟩
  · rintro ⟨htrim, hlower⟩
    rw [htrim, hlower]

end Endpoint

namespace Host

/-- One pair of brackets around a text. -/
def inBrackets (cs : List Char) : List Char := '[' :: cs ++ [']']

theorem length_inBrackets (cs : List Char) : (inBrackets cs).length = cs.length + 2 := by
  simp [inBrackets]

theorem lower_inBrackets (cs : List Char) :
    Text.lower (inBrackets cs) = inBrackets (Text.lower cs) := by
  have hopen : '['.toLower = '[' := rfl
  have hclose : ']'.toLower = ']' := rfl
  simp [Text.lower, inBrackets, hopen, hclose]

theorem trim_inBrackets (cs : List Char) : Text.trim (inBrackets cs) = inBrackets cs :=
  Text.trim_between (by decide) (by decide) cs

theorem unbracket_inBrackets (cs : List Char) : unbracket (inBrackets cs) = unbracket cs := by
  have hclose : ([']'].dropWhile (· == '[')) = [']'] := rfl
  unfold unbracket inBrackets
  rw [List.cons_append, List.dropWhile_cons_of_pos (by decide), List.dropWhile_append, hclose]
  split
  · rename_i hnil
    rw [List.isEmpty_iff.mp hnil]
    rfl
  · exact Text.dropRightWhile_append (by simp) _

theorem unbracket_eq_self_iff {cs : List Char} :
    unbracket cs = cs ↔ cs.head? ≠ some '[' ∧ cs.getLast? ≠ some ']' := by
  have hmark : ∀ (m : Char) (c? : Option Char),
      (∀ c, c? = some c → (c == m) = false) ↔ c? ≠ some m := by
    intro m c?
    cases c? <;> simp
  exact Text.strip_eq_self_iff.trans (and_congr (hmark '[' _) (hmark ']' _))

theorem length_iterate_inBrackets (pairs : Nat) (cs : List Char) :
    (inBrackets^[pairs] cs).length = cs.length + 2 * pairs := by
  induction pairs with
  | zero => rfl
  | succ pairs ih => rw [Function.iterate_succ_apply', length_inBrackets, ih, Nat.mul_succ, Nat.add_assoc]

theorem unbracket_iterate_inBrackets (pairs : Nat) (cs : List Char) :
    unbracket (inBrackets^[pairs] cs) = unbracket cs := by
  induction pairs with
  | zero => rfl
  | succ pairs ih => rw [Function.iterate_succ_apply', unbracket_inBrackets, ih]

/-- A host in another spelling, and how many pairs of brackets were put around it for that. -/
inductive Spelling (host : String) : Nat → String → Prop
  | same : Spelling host 0 host
  | padded {pairs : Nat} {other : String} (before after : String) : Spelling host pairs other →
      Text.Blank before.toList → Text.Blank after.toList →
      Spelling host pairs (before ++ other ++ after)
  | recased {pairs : Nat} {other : String} (again : String) : Spelling host pairs other →
      Text.lower again.toList = Text.lower other.toList → Spelling host pairs again
  /-- The brackets come around the host without the white space. -/
  | bracketed {pairs : Nat} {other : String} : Spelling host pairs other →
      Spelling host (pairs + 1) (String.ofList (inBrackets (Text.trim other.toList)))

variable {host other : String} {pairs : Nat}

theorem Spelling.normal (h : Spelling host pairs other) :
    (Endpoint.normal other).toList = inBrackets^[pairs] (Endpoint.normal host).toList := by
  induction h with
  | same => rfl
  | padded before after _ hb ha ih =>
    rw [← ih, Endpoint.toList_normal, Endpoint.toList_normal, String.toList_append,
      String.toList_append, Text.trim_padded hb ha]
  | recased again _ hlower ih =>
    rw [← ih, Endpoint.toList_normal, Endpoint.toList_normal, ← Text.trim_lower, hlower,
      Text.trim_lower]
  | bracketed _ ih =>
    rw [Function.iterate_succ_apply', ← ih, Endpoint.toList_normal, Endpoint.toList_normal,
      String.toList_ofList, trim_inBrackets, lower_inBrackets]

theorem Spelling.normal_eq_iff (h : Spelling host pairs other) :
    Endpoint.normal other = Endpoint.normal host ↔ pairs = 0 := by
  constructor
  · intro heq
    have hlength := congrArg List.length h.normal
    rw [heq, length_iterate_inBrackets] at hlength
    omega
  · rintro rfl
    exact String.toList_injective h.normal

theorem Spelling.isLoopback (h : Spelling host pairs other) : isLoopback other = isLoopback host := by
  have hform : ∀ s : String, Host.isLoopback s =
      isLoopbackName (unbracket (Endpoint.normal s).toList) := by
    intro s
    rw [← isLoopback_normal, Host.isLoopback, Endpoint.toList_normal, Text.trim_lower, Text.trim_trim]
  rw [hform, hform, h.normal, unbracket_iterate_inBrackets]

end Host

end MeshShell
