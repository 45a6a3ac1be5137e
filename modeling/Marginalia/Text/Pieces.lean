import Marginalia.Text.Basic

/-!
# Pieces of texts

Splitting a text at a character and joining the pieces with it again are inverse to each other, as
long as no piece holds the character. Joining fewer pieces leaves out characters of the text.
-/
namespace Marginalia.Text

theorem join_singleton (sep t : Text) : join sep [t] = t := by
  simp [join]

theorem join_cons_cons (sep t u : Text) (ts : List Text) :
    join sep (t :: u :: ts) = t ++ (sep ++ join sep (u :: ts)) := by
  simp [join]

/-- Joining fewer texts leaves out characters. -/
theorem join_sublist (sep : Text) {ts us : List Text} (h : ts.Sublist us) :
    (join sep ts).Sublist (join sep us) := by
  induction h with
  | slnil => exact .slnil
  | @cons ts us u _ ih =>
      cases us with
      | nil => exact ih.trans (List.nil_sublist _)
      | cons v us =>
          rw [join_cons_cons, ← List.append_assoc]
          exact ih.trans (List.sublist_append_right _ _)
  | @cons_cons ts us t h ih =>
      cases us with
      | nil =>
          cases List.sublist_nil.mp h
          exact .refl _
      | cons v us =>
          cases ts with
          | nil =>
              rw [join_cons_cons, join_singleton]
              exact List.sublist_append_left _ _
          | cons u ts =>
              rw [join_cons_cons, join_cons_cons]
              exact (List.Sublist.refl t).append ((List.Sublist.refl sep).append ih)

/-- Joining puts the separator behind every text but the last one. -/
theorem join_concat (sep : Text) (ts : List Text) (t : Text) :
    join sep (ts ++ [t]) = ts.flatMap (· ++ sep) ++ t := by
  induction ts with
  | nil => simp [join]
  | cons u us ih =>
      cases us with
      | nil => simp [join]
      | cons v vs =>
          simp only [join, List.cons_append, List.intersperse_cons_cons, List.flatten_cons,
            List.flatMap_cons, List.append_assoc] at ih ⊢
          rw [ih]

theorem splitAtChar_ne_nil (sep : Char) (t : Text) : splitAtChar sep t ≠ [] := by
  cases t with
  | nil => simp [splitAtChar]
  | cons c cs =>
      rw [splitAtChar]
      split
      · exact List.cons_ne_nil _ _
      · split <;> exact List.cons_ne_nil _ _

theorem notMem_of_mem_splitAtChar {sep : Char} {t piece : Text} (h : piece ∈ splitAtChar sep t) :
    sep ∉ piece := by
  induction t generalizing piece with
  | nil =>
      rw [splitAtChar, List.mem_singleton] at h
      rw [h]
      exact List.not_mem_nil
  | cons c cs ih =>
      rw [splitAtChar] at h
      split at h
      · rcases List.mem_cons.mp h with rfl | h
        · exact List.not_mem_nil
        · exact ih h
      · next hc =>
        split at h
        · next hnil => exact absurd hnil (splitAtChar_ne_nil sep cs)
        · next first pieces hsplit =>
          rw [hsplit] at ih
          rcases List.mem_cons.mp h with rfl | h
          · rw [List.mem_cons, not_or]
            exact ⟨Ne.symm hc, ih List.mem_cons_self⟩
          · exact ih (List.mem_cons_of_mem _ h)

theorem splitAtChar_of_notMem {sep : Char} {t : Text} (h : sep ∉ t) : splitAtChar sep t = [t] := by
  induction t with
  | nil => rfl
  | cons c cs ih =>
      rw [List.mem_cons, not_or] at h
      rw [splitAtChar, if_neg (Ne.symm h.1), ih h.2]

/-- A text falls into pieces as its parts around a separator do. -/
theorem splitAtChar_append_cons (sep : Char) (t rest : Text) :
    splitAtChar sep (t ++ sep :: rest) = splitAtChar sep t ++ splitAtChar sep rest := by
  induction t with
  | nil =>
      change splitAtChar sep (sep :: rest) = [] :: splitAtChar sep rest
      rw [splitAtChar, if_pos rfl]
  | cons c cs ih =>
      rw [List.cons_append, splitAtChar, splitAtChar, ih]
      split
      · rfl
      · cases hsplit : splitAtChar sep cs with
        | nil => exact absurd hsplit (splitAtChar_ne_nil sep cs)
        | cons piece pieces => rfl

theorem splitAtChar_append {sep : Char} {t : Text} (h : sep ∉ t) (rest : Text) :
    splitAtChar sep (t ++ sep :: rest) = t :: splitAtChar sep rest := by
  rw [splitAtChar_append_cons, splitAtChar_of_notMem h, List.singleton_append]

theorem splitAtChar_join {sep : Char} {ts : List Text} (hne : ts ≠ []) (h : ∀ t ∈ ts, sep ∉ t) :
    splitAtChar sep (join [sep] ts) = ts := by
  induction ts with
  | nil => exact absurd rfl hne
  | cons t ts ih =>
      obtain ⟨ht, hts⟩ := List.forall_mem_cons.mp h
      cases ts with
      | nil =>
          rw [join_singleton, splitAtChar_of_notMem ht]
      | cons u us =>
          have hjoin : join [sep] (t :: u :: us) = t ++ sep :: join [sep] (u :: us) := by
            simp [join]
          rw [hjoin, splitAtChar_append ht, ih (by simp) hts]

/-- The pieces of a text make up the text. -/
theorem join_splitAtChar (sep : Char) (t : Text) : join [sep] (splitAtChar sep t) = t := by
  induction t with
  | nil => rfl
  | cons c cs ih =>
      rw [splitAtChar]
      split
      · next hc =>
        cases hsplit : splitAtChar sep cs with
        | nil => exact absurd hsplit (splitAtChar_ne_nil sep cs)
        | cons piece pieces =>
            rw [hsplit] at ih
            rw [join_cons_cons, ih, hc]
            rfl
      · split
        · next hnil => exact absurd hnil (splitAtChar_ne_nil sep cs)
        · next piece pieces hsplit =>
          rw [hsplit] at ih
          cases pieces with
          | nil =>
              rw [join_singleton] at ih ⊢
              rw [ih]
          | cons next pieces =>
              rw [join_cons_cons] at ih ⊢
              rw [List.cons_append, ih]

end Marginalia.Text
