import Marginalia.Path
import Marginalia.Text.Pieces

/-!
# Cleaning and going up

What is left of a path after cleaning stands in the path in the same order, so a clean path is not
longer than the path. Going up from a directory therefore leads to an end: the path gets shorter
with each step until it is its own directory.
-/
namespace Marginalia.Path

theorem names_append (front back : Text) :
    names (front ++ '/' :: back) = names front ++ names back := by
  rw [names, Text.splitAtChar_append_cons, List.filter_append]
  rfl

section Push
variable {rooted : Bool} {stack : List Text}

/-- A component is added behind the clean ones, or some of these are taken back. -/
theorem push_eq_cons_or_suffix (rooted : Bool) (stack : List Text) (name : Text) :
    push rooted stack name = name :: stack ∨ push rooted stack name <:+ stack := by
  unfold push
  split
  · exact .inr (List.suffix_refl stack)
  · split
    · next hup =>
      cases stack with
      | nil =>
          cases rooted with
          | true => exact .inr (List.suffix_refl [])
          | false => exact .inl (by rw [hup]; rfl)
      | cons last rest =>
          simp only
          split
          · exact .inl (by rw [hup])
          · exact .inr (List.suffix_cons last rest)
    · exact .inl rfl

theorem foldl_push_filter (pieces : List Text) :
    pieces.foldl (push rooted) stack = (pieces.filter (· ≠ [])).foldl (push rooted) stack := by
  induction pieces generalizing stack with
  | nil => rfl
  | cons piece pieces ih =>
      by_cases hnil : piece = []
      · rw [hnil, List.filter_cons_of_neg (by simp), List.foldl_cons, ih]
        rfl
      · rw [List.filter_cons_of_pos (by simpa using hnil), List.foldl_cons, List.foldl_cons, ih]

end Push

/-- The components that are left of a path, the last one first. -/
def left (path : Text) : List Text := (names path).foldl (push (isAbsolute path)) []

theorem clean_eq (path : Text) : clean path = ofNames (isAbsolute path) (left path).reverse := by
  rw [clean, foldl_push_filter]
  rfl

/-- Adding a component leaves components in their order. -/
theorem push_sublist (rooted : Bool) (stack : List Text) (name : Text) :
    (push rooted stack name).reverse.Sublist (stack.reverse ++ [name]) := by
  rw [← List.reverse_cons, List.reverse_sublist]
  rcases push_eq_cons_or_suffix rooted stack name with hcons | hsuffix
  · exact hcons ▸ List.Sublist.refl _
  · exact hsuffix.sublist.trans (List.sublist_cons_self name stack)

theorem foldl_push_sublist (rooted : Bool) (stack ns : List Text) :
    (ns.foldl (push rooted) stack).reverse.Sublist (stack.reverse ++ ns) := by
  induction ns generalizing stack with
  | nil =>
      rw [List.append_nil]
      exact .refl _
  | cons n ns ih =>
      have hfirst := (push_sublist rooted stack n).append_right ns
      rw [List.append_assoc, List.singleton_append] at hfirst
      exact (ih (push rooted stack n)).trans hfirst

theorem left_sublist (path : Text) : (left path).reverse.Sublist (names path) :=
  foldl_push_sublist (isAbsolute path) [] (names path)

theorem join_sublist_of_names {path : Text} {ns : List Text} (h : ns.Sublist (names path)) :
    (Text.join "/" ns).Sublist path := by
  have hjoin := Text.join_sublist ['/'] (h.trans List.filter_sublist)
  rwa [Text.join_splitAtChar] at hjoin

/-- Cleaning a path leaves out characters, unless nothing is left. -/
theorem clean_sublist {path : Text} (h : left path ≠ []) : (clean path).Sublist path := by
  have hleft := left_sublist path
  rw [clean_eq]
  cases path with
  | nil => exact absurd rfl h
  | cons c rest =>
      by_cases hc : c = '/'
      · subst hc
        have hnames : names ('/' :: rest) = names rest := names_append [] rest
        rw [hnames] at hleft
        exact (join_sublist_of_names hleft).cons_cons '/'
      · have hrel : isAbsolute (c :: rest) = false := by simpa [isAbsolute] using hc
        rw [hrel, ofNames, if_neg Bool.false_ne_true, if_neg (by simpa using h)]
        exact join_sublist_of_names hleft

/-- How far the end of going up is at most. A path of dots alone is nearest to it. -/
def rank (path : Text) : Nat := if path = here then 0 else path.length + 1

theorem rank_lt_of_length_lt {p q : Text} (h : p.length < q.length) (hq : q ≠ here) :
    rank p < rank q := by
  unfold rank
  rw [if_neg hq]
  split <;> omega

theorem rank_here_lt {path : Text} (h : here ≠ path) : rank here < rank path := by
  rw [rank, if_pos rfl, rank, if_neg (Ne.symm h)]
  exact Nat.succ_pos _

/-- Going up leads nearer to the end or stays where it is. -/
theorem rank_directory_lt {path : Text} (h : directory path ≠ path) :
    rank (directory path) < rank path := by
  obtain ⟨name, hpath⟩ : (path.reverse.dropWhile (· ≠ '/')).reverse <+: path := by
    rw [← List.reverse_suffix, List.reverse_reverse]
    exact List.dropWhile_suffix _
  unfold directory at h ⊢
  generalize (path.reverse.dropWhile (· ≠ '/')).reverse = front at h hpath ⊢
  subst hpath
  by_cases hleft : left front = []
  · rw [clean_eq, hleft] at h ⊢
    cases front with
    | nil => exact rank_here_lt h
    | cons c rest =>
        by_cases hc : c = '/'
        · subst hc
          refine rank_lt_of_length_lt ?_ nofun
          have hne : rest ++ name ≠ [] := fun hnil => h (congrArg ('/' :: ·) hnil.symm)
          exact Nat.succ_lt_succ (List.length_pos_iff.mpr hne)
        · have hrel : isAbsolute (c :: rest) = false := by simpa [isAbsolute] using hc
          rw [hrel] at h ⊢
          exact rank_here_lt h
  · have hsub := clean_sublist hleft
    have hle := hsub.length_le
    refine rank_lt_of_length_lt ?_ ?_
    · rw [List.length_append]
      by_cases hname : name = []
      · subst hname
        rw [List.append_nil] at h
        have hlength : (clean front).length ≠ front.length := fun heq => h (hsub.eq_of_length heq)
        rw [List.length_nil]
        omega
      · have hpos := List.length_pos_iff.mpr hname
        omega
    · intro hhere
      cases front with
      | nil => exact hleft rfl
      | cons c rest =>
          obtain ⟨rfl, hrest⟩ := List.cons.inj hhere
          obtain ⟨rfl, -⟩ := List.append_eq_nil_iff.mp hrest
          exact hleft rfl

end Marginalia.Path
