import Marginalia.Proofs.Dropped
import Marginalia.Proofs.Script

/-!
# The scripts that can be chosen

What a plan can be, said once for each mode. A script at the start of a line comes with what the
text at the cursor is then known to be; in particular, whatever is not dropped does not start with a
dropped line.
-/
namespace Marginalia

namespace Scanner
open Marker

variable {t : Text} {script : List Op}

/-- The scripts at a line comment of its own. -/
inductive LineScript (t : Text) : List Op → Prop
  | drop : Drops t → LineScript t (dropScript t)
  | clear : ¬Drops t → LineScript t (clearScript t)
  | comment : ¬Drops t → LineScript t (commentScript t)

/-- The scripts at the start of a line. -/
inductive BaseScript (t : Text) : List Op → Prop
  | keep {mode : Mode} {n : Nat} : 0 < n → mode.Outside → ¬Drops t →
      BaseScript t [.keep n, .enter mode]
  | line {script : List Op} : LineScript t script → BaseScript t script
  | openBlock : opensBlock t → ¬Drops t → BaseScript t (openScript t)

theorem planLineComment_cases (hp : planLineComment t = .go script) : LineScript t script := by
  unfold planLineComment at hp
  split at hp
  · next hl =>
    cases hp
    exact .drop (.inl hl)
  · next hl =>
    split at hp
    · next flag hf =>
      split_ifs at hp with hi hc
      · cases hp
        exact .drop (.inr (hi ▸ hf))
      · cases hp
        refine .clear ?_
        rintro (h | h)
        · exact hl h
        · exact hi (Option.some.inj (hf.symm.trans h))
    · next hf =>
      cases hp
      refine .comment ?_
      rintro (h | h)
      · exact hl h
      · rw [hf] at h
        cases h

theorem planBase_cases (hp : planBase t = .go script) : BaseScript t script := by
  unfold planBase at hp
  split at hp
  · next hb =>
    cases hp
    exact .openBlock hb fun hd => not_opensLine_of_opensBlock hb hd.opensLine
  · split at hp
    · exact .line (planLineComment_cases hp)
    · next ho =>
      cases hp
      refine .keep Nat.one_pos ?_ fun hd => ho hd.opensLine
      split
      · exact .inl rfl
      · exact .inr rfl

/-- A literal starts with a quote, which is part of no marker. -/
theorem exists_stop_of_literal? {n : Nat} (h : literal? t = some n) :
    ∃ q cs, t = q :: cs ∧ isStop q := by
  cases t with
  | nil => cases h
  | cons q cs =>
      have hq : q = '"' ∨ q = '\'' := by
        by_contra hq
        rw [literal?, if_neg hq] at h
        cases h
      exact ⟨q, cs, rfl, by rcases hq with rfl | rfl <;> decide⟩

/-- A literal does not open with a line comment. -/
theorem not_opensLine_of_literal? {n : Nat} (h : literal? t = some n) : ¬opensLine t := by
  intro ho
  obtain ⟨q, cs, rfl, hstop⟩ := exists_stop_of_literal? h
  rw [← List.nil_append (q :: cs), opensLine_append_stop hstop] at ho
  exact absurd ho (by decide)

/-- A literal does not open with a block comment. -/
theorem not_opensBlock_of_literal? {n : Nat} (h : literal? t = some n) : ¬opensBlock t := by
  intro ho
  obtain ⟨q, cs, rfl, hstop⟩ := exists_stop_of_literal? h
  rw [← List.nil_append (q :: cs), opensBlock_append_stop hstop] at ho
  exact absurd ho (by decide)

/-- A literal is not a dropped line. -/
theorem not_drops_of_literal? {n : Nat} (h : literal? t = some n) : ¬Drops t :=
  fun hd => not_opensLine_of_literal? h hd.opensLine

/-- Where a line comment opens, it is what the step is about. -/
theorem plan_base_of_opensLine (h : opensLine t) : plan .base t = planLineComment t := by
  have hne : t ≠ [] := by
    rintro rfl
    exact absurd h (by decide)
  have hnone : literal? t = none := by
    cases hl : literal? t with
    | none => rfl
    | some n => exact absurd h (not_opensLine_of_literal? hl)
  have hblock : ¬opensBlock t := fun hb => not_opensLine_of_opensBlock hb h
  rw [plan, planOutside_of_ne_nil hne, hnone]
  simp only
  rw [planBase, if_neg hblock, if_pos h]

/-- Where a block comment opens, it is what the step is about. -/
theorem plan_base_of_opensBlock (h : opensBlock t) : plan .base t = .go (openScript t) := by
  have hne : t ≠ [] := by
    rintro rfl
    exact absurd h (by decide)
  have hnone : literal? t = none := by
    cases hl : literal? t with
    | none => rfl
    | some n => exact absurd h (not_opensBlock_of_literal? hl)
  rw [plan, planOutside_of_ne_nil hne, hnone]
  simp only
  rw [planBase, if_pos h]

theorem plan_base (hp : plan .base t = .go script) : BaseScript t script := by
  rw [plan] at hp
  unfold planOutside at hp
  split at hp
  · cases hp
  · split at hp
    · next n hn =>
      cases hp
      exact .keep (literal?_pos hn) (.inr rfl) (not_drops_of_literal? hn)
    · exact planBase_cases hp

/-- In the middle of a line something is kept. -/
theorem plan_code (hp : plan .code t = .go script) :
    ∃ n mode, mode.Outside ∧ script = [.keep n, .enter mode] := by
  rw [plan] at hp
  unfold planOutside at hp
  split at hp
  · cases hp
  · split at hp
    · cases hp
      exact ⟨_, _, .inr rfl, rfl⟩
    · unfold planCode at hp
      split_ifs at hp
      · split at hp
        · cases hp
        · cases hp
          exact ⟨_, _, .inr rfl, rfl⟩
      · cases hp
        exact ⟨_, _, .inl rfl, rfl⟩
      · cases hp
        exact ⟨_, _, .inr rfl, rfl⟩
      · cases hp
        exact ⟨_, _, .inl rfl, rfl⟩

theorem plan_block {indent : Nat} (hp : plan (.block indent) t = .go script) :
    script = blockLineScript indent t ∨ ∃ body, script = closeScript indent t body := by
  rw [plan] at hp
  unfold planBlock at hp
  split at hp
  · cases hp
  · split at hp
    · cases hp
      exact .inr ⟨_, rfl⟩
    · cases hp
      exact .inl rfl

end Scanner

end Marginalia
