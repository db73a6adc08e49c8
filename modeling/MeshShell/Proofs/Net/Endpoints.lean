import MeshShell.Net.Endpoint
import MeshShell.Proofs.Text.Written
import Mathlib.Data.String.Basic

/-! # The order of endpoints and their texts

Endpoints are ordered strictly by host and port. No two of them have the same
text: the port comes after the last colon, and a host that has colons itself
stands in brackets.
-/
namespace MeshShell

theorem Decimal.digits_injective {n m : Nat} (h : digits n = digits m) : n = m := by
  rw [← value_digits n, h, value_digits]

namespace Endpoint

variable {a b c : Endpoint}

theorem lt_iff : a < b ↔ a.host < b.host ∨ a.host = b.host ∧ a.port < b.port := Iff.rfl

theorem ext (hhost : a.host = b.host) (hport : a.port = b.port) : a = b := by
  cases a
  cases b
  exact congrArg₂ Endpoint.mk hhost hport

theorem lt_trans (hab : a < b) (hbc : b < c) : a < c := by
  rw [lt_iff] at hab hbc ⊢
  rcases hab with hab | ⟨hab, hp⟩
  · rcases hbc with hbc | ⟨hbc, -⟩
    · exact .inl (hab.trans hbc)
    · exact .inl (hbc ▸ hab)
  · rcases hbc with hbc | ⟨hbc, hq⟩
    · exact .inl (hab ▸ hbc)
    · exact .inr ⟨hab.trans hbc, UInt16.lt_trans hp hq⟩

theorem ne_of_lt (h : a < b) : a ≠ b := by
  rintro rfl
  rcases lt_iff.mp h with h | ⟨-, h⟩
  · exact String.lt_irrefl _ h
  · exact UInt16.lt_irrefl _ h

theorem lt_of_not_lt (hne : a ≠ b) (h : ¬ a < b) : b < a := by
  rw [lt_iff] at h ⊢
  rcases lt_trichotomy a.host b.host with hlt | heq | hlt
  · exact absurd (.inl hlt) h
  · have hle : b.port ≤ a.port := UInt16.not_lt.mp fun hp => h (.inr ⟨heq, hp⟩)
    have hport : b.port ≠ a.port := fun hp => hne (ext heq hp.symm)
    exact .inr ⟨heq.symm, UInt16.lt_of_le_of_ne hle hport⟩
  · exact .inl hlt

/-- The text of an endpoint up to the colon in front of the port. -/
def front (e : Endpoint) : List Char :=
  if e.host.toList.contains ':' then '[' :: e.host.toList ++ [']'] else e.host.toList

theorem toList_text (e : Endpoint) :
    e.text.toList = e.front ++ ':' :: Decimal.digits e.port.toNat := by
  unfold text front
  split <;> simp [Decimal.text]

theorem eq_of_append_colon {as bs ds es : List Char} (h : as ++ ':' :: ds = bs ++ ':' :: es)
    (hd : ':' ∉ ds) (he : ':' ∉ es) : as = bs ∧ ds = es := by
  rcases List.append_eq_append_iff.mp h with ⟨more, rfl, hrest⟩ | ⟨more, rfl, hrest⟩
  all_goals
    cases more with
    | nil => simpa [eq_comm] using hrest
    | cons c more =>
      obtain ⟨-, rfl⟩ := List.cons.inj hrest
      simp at hd he

theorem front_injective (h : a.front = b.front) : a.host = b.host := by
  have hcolon : ∀ e : Endpoint, e.front.contains ':' = e.host.toList.contains ':' := by
    intro e
    unfold front
    split <;> simp_all
  have hsame : a.host.toList.contains ':' = b.host.toList.contains ':' := by
    rw [← hcolon, h, hcolon]
  unfold front at h
  rw [hsame] at h
  split at h
  · have hinner := List.append_cancel_right h
    exact String.toList_injective (List.cons.inj hinner).2
  · exact String.toList_injective h

theorem text_injective (h : a.text = b.text) : a = b := by
  have hdigits : ∀ n, ':' ∉ Decimal.digits n := by
    intro n hm
    exact absurd (Decimal.isDigit_of_mem hm) (by decide)
  have hlists := congrArg String.toList h
  rw [toList_text, toList_text] at hlists
  obtain ⟨hfront, hport⟩ := eq_of_append_colon hlists (hdigits _) (hdigits _)
  exact ext (front_injective hfront) (UInt16.toNat_inj.mp (Decimal.digits_injective hport))

end Endpoint

end MeshShell
