import Mathlib.Data.List.Basic

/-!
# Look-up in lists of pairs

Tables are lists of pairs in which the first pair with a key counts. Taking a key out and putting it
in again changes what is found under that key and nothing else.
-/
namespace Marginalia

variable {κ ν : Type} [BEq κ] [LawfulBEq κ] [DecidableEq κ]

theorem lookup_filter_ne (entries : List (κ × ν)) (k q : κ) :
    (entries.filter (·.1 ≠ k)).lookup q = if q = k then none else entries.lookup q := by
  induction entries with
  | nil => simp
  | cons entry entries ih =>
      obtain ⟨r, v⟩ := entry
      by_cases hr : r = k
      · rw [List.filter_cons_of_neg (by simpa using hr), ih, List.lookup_cons, hr]
        by_cases hq : q = k
        · rw [if_pos hq, if_pos hq]
        · rw [beq_eq_false_iff_ne.mpr hq]
      · rw [List.filter_cons_of_pos (by simpa using hr), List.lookup_cons, List.lookup_cons, ih]
        by_cases hq : q = r
        · simp [hq, hr]
        · rw [beq_eq_false_iff_ne.mpr hq]

/-- A pair in place of those with its key. -/
theorem lookup_overwrite (entries : List (κ × ν)) (k q : κ) (v : ν) :
    ((k, v) :: entries.filter (·.1 ≠ k)).lookup q = if q = k then some v else entries.lookup q := by
  rw [List.lookup_cons]
  by_cases hq : q = k
  · rw [beq_iff_eq.mpr hq, if_pos hq]
  · rw [beq_eq_false_iff_ne.mpr hq, if_neg hq, lookup_filter_ne, if_neg hq]

end Marginalia
