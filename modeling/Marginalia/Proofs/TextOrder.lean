import Marginalia.Language
import Mathlib.Data.Char
import Mathlib.Data.List.Lex

/-!
# The order of texts

Texts are ordered as lists of characters are. The order is linear, so a list of texts has exactly one
sorted form.
-/
namespace Marginalia.Text

theorem atMost_iff {a b : Text} : atMost a b = true ↔ a ≤ b := by
  rw [← not_lt]
  induction a generalizing b with
  | nil => exact ⟨fun _ => List.not_lt_nil b, fun _ => by cases b <;> rfl⟩
  | cons c as ih =>
      cases b with
      | nil => exact ⟨nofun, fun h => absurd (List.nil_lt_cons c as) h⟩
      | cons d bs =>
          rw [atMost, List.cons_lt_cons_iff, not_or]
          split
          · next heq =>
            rw [ih, heq]
            simp
          · next hne =>
            have hlt : c.toNat < d.toNat ↔ c < d := Iff.rfl
            rw [decide_eq_true_iff, hlt, not_lt]
            constructor
            · exact fun h => ⟨h.le, fun heq => hne heq.1.symm⟩
            · exact fun h => lt_of_le_of_ne h.1 hne

variable {texts sorted : List Text}

theorem pairwise_mergeSort : (texts.mergeSort atMost).Pairwise (· ≤ ·) := by
  have htrans : ∀ a b c : Text, atMost a b = true → atMost b c = true → atMost a c = true := by
    intro a b c hab hbc
    rw [atMost_iff] at hab hbc ⊢
    exact le_trans hab hbc
  have htotal : ∀ a b : Text, (atMost a b || atMost b a) = true := by
    intro a b
    rw [Bool.or_eq_true, atMost_iff, atMost_iff]
    exact le_total a b
  exact (List.pairwise_mergeSort htrans htotal texts).imp atMost_iff.mp

/-- A list has one sorted form. -/
theorem eq_mergeSort (hsorted : sorted.Pairwise (· ≤ ·)) (hperm : sorted.Perm texts) :
    sorted = texts.mergeSort atMost := by
  have hperm' := hperm.trans (List.mergeSort_perm texts atMost).symm
  exact hperm'.eq_of_pairwise (fun _ _ _ _ => le_antisymm) hsorted pairwise_mergeSort

end Marginalia.Text
