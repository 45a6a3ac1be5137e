import Marginalia.Text.Pieces
import Mathlib.Data.List.TakeWhile

/-!
# Laws of texts

A text that has an opening, a marker or a first line is that part followed by the rest. The laws say
so as equations, so that whoever uses one of the operations of `Text` can go on with the parts and
need not open the operation again.
-/
namespace Marginalia.Text

theorem dropOpening?_eq_some {opening t behind : Text} :
    dropOpening? opening t = some behind ↔ t = opening ++ behind := by
  induction opening generalizing t with
  | nil => simp [dropOpening?]
  | cons o os ih =>
      cases t with
      | nil => simp [dropOpening?]
      | cons c cs =>
          by_cases hc : o = c
          · simp [dropOpening?, hc, ih]
          · simp [dropOpening?, hc, Ne.symm hc]

theorem opens_iff {opening t : Text} : opens opening t ↔ ∃ behind, t = opening ++ behind := by
  simp only [opens, Option.isSome_iff_exists, dropOpening?_eq_some]

theorem cut?_eq_some {marker t before behind : Text} (h : cut? marker t = some (before, behind)) :
    t = before ++ marker ++ behind := by
  induction t generalizing before with
  | nil =>
      by_cases hm : marker = []
      · simp_all [cut?]
      · simp [cut?, hm] at h
  | cons c cs ih =>
      simp only [cut?] at h
      split at h
      · next r hr =>
        simp only [Option.some.injEq, Prod.mk.injEq] at h
        obtain ⟨rfl, rfl⟩ := h
        simpa using dropOpening?_eq_some.mp hr
      · obtain ⟨⟨b, r⟩, hb, he⟩ := Option.map_eq_some_iff.mp h
        simp only [Prod.mk.injEq] at he
        obtain ⟨rfl, rfl⟩ := he
        simp only [List.cons_append, ← ih hb]

/-- A single character is cut at its first place. -/
theorem cut?_singleton (c : Char) (t : Text) :
    (cut? [c] t).map Prod.fst = if c ∈ t then some (t.takeWhile (· ≠ c)) else none := by
  induction t with
  | nil => rfl
  | cons d ds ih =>
      by_cases hd : c = d
      · subst hd
        simp [cut?, dropOpening?]
      · have hopen : dropOpening? [c] (d :: ds) = none := by simp [dropOpening?, hd]
        have hcut : (cut? [c] (d :: ds)).map Prod.fst =
            ((cut? [c] ds).map Prod.fst).map (d :: ·) := by
          simp only [cut?, hopen, Option.map_map]
          rfl
        rw [hcut, ih]
        by_cases hc : c ∈ ds
        · simp [hc, Ne.symm hd]
        · simp [hc, hd]

theorem newline_notMem_firstLine (t : Text) : '\n' ∉ firstLine t := by
  intro h
  simpa using List.mem_takeWhile_imp h

/-- Behind the first line there is nothing or a line feed. -/
theorem eq_firstLine_append (t : Text) :
    ∃ behind, t = firstLine t ++ behind ∧ (behind = [] ∨ ∃ more, behind = '\n' :: more) := by
  induction t with
  | nil => exact ⟨[], rfl, .inl rfl⟩
  | cons c cs ih =>
      by_cases hc : c = '\n'
      · exact ⟨c :: cs, by simp [firstLine, hc], .inr ⟨cs, by rw [hc]⟩⟩
      · obtain ⟨behind, he, hb⟩ := ih
        have hline : firstLine (c :: cs) = c :: firstLine cs := by simp [firstLine, hc]
        exact ⟨behind, by rw [hline, List.cons_append, ← he], hb⟩

theorem firstLine_append {a b : Text} (h : '\n' ∉ a) : firstLine (a ++ b) = a ++ firstLine b := by
  apply List.takeWhile_append_of_pos
  intro c hc
  simp only [decide_eq_true_eq]
  rintro rfl
  exact h hc

/-- A marker on the first line stands in the text, and no line feed in front of it. -/
theorem cut?_firstLine {marker t before behind : Text}
    (h : cut? marker (firstLine t) = some (before, behind)) :
    '\n' ∉ before ∧ ∃ more, t = before ++ (marker ++ more) := by
  have hline := cut?_eq_some h
  obtain ⟨rest, ht, _⟩ := eq_firstLine_append t
  constructor
  · intro hb
    exact newline_notMem_firstLine t (by simp [hline, hb])
  · refine ⟨behind ++ rest, ?_⟩
    rw [hline] at ht
    simpa only [List.append_assoc] using ht

theorem dropEnding?_eq_some {ending t front : Text} :
    dropEnding? ending t = some front ↔ t = front ++ ending := by
  rw [dropEnding?, Option.map_eq_some_iff]
  constructor
  · rintro ⟨r, hr, rfl⟩
    simpa using congrArg List.reverse (dropOpening?_eq_some.mp hr)
  · rintro rfl
    exact ⟨front.reverse, dropOpening?_eq_some.mpr (by simp), by simp⟩

theorem eq_dropEnding_or (ending t : Text) :
    t = dropEnding ending t ∨ t = dropEnding ending t ++ ending := by
  rw [dropEnding]
  cases h : dropEnding? ending t with
  | none => exact .inl rfl
  | some front => exact .inr (dropEnding?_eq_some.mp h)

theorem dropEnding_isPrefix (ending t : Text) : dropEnding ending t <+: t := by
  rcases eq_dropEnding_or ending t with h | h
  · exact ⟨[], by rw [List.append_nil, ← h]⟩
  · exact ⟨ending, h.symm⟩

theorem dropEnding_append (ending t : Text) : dropEnding ending (t ++ ending) = t := by
  rw [dropEnding, dropEnding?_eq_some.mpr rfl, Option.getD_some]

theorem dropEnding?_of_notMem {c : Char} {ending t : Text} (hc : c ∈ ending) (h : c ∉ t) :
    dropEnding? ending t = none := by
  rw [Option.eq_none_iff_forall_ne_some]
  intro front hf
  apply h
  rw [dropEnding?_eq_some.mp hf]
  exact List.mem_append_right _ hc

theorem dropEnding_of_notMem {c : Char} {t : Text} (h : c ∉ t) : dropEnding [c] t = t := by
  rw [dropEnding, dropEnding?_of_notMem (List.mem_singleton_self c) h, Option.getD_none]

/-- Leaving out characters leaves out bytes. -/
theorem byteLength_le_of_sublist {t u : Text} (h : t.Sublist u) : byteLength t ≤ byteLength u := by
  induction h with
  | slnil => exact Nat.le_refl _
  | cons c _ ih => exact Nat.le_trans ih (Nat.le_add_left _ _)
  | cons_cons c _ ih => exact Nat.add_le_add_left ih _

end Marginalia.Text
