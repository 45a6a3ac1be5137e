import Marginalia.Text.Basic

/-!
# Patterns for paths

In a pattern a question mark stands for one character, a star for any number of them and brackets for
one of a set; none but a set stands for a slash. A double star that is a whole component stands for any
number of components. Braces hold alternatives, and a backslash takes the next character as it is.

This module holds the parts of a pattern and says which patterns are well formed.
-/
namespace Marginalia.Glob

/-- The characters that make a path a pattern. -/
def isMeta (c : Char) : Bool := ("*?[\x7b" : Text).contains c

def isPattern (t : Text) : Bool := t.any isMeta

/-- Whether the set behind an opening bracket is negated. -/
def isNegated (t : Text) : Bool := t.head? == some '^' || t.head? == some '!'

/-- The members of the set behind an opening bracket, with what follows them. A set is not empty. -/
def members? (t : Text) : Option Text :=
  let members := t.drop (if isNegated t then 1 else 0)
  if members.isEmpty || members.head? == some ']' then none else some members

/-- The pattern behind the bracket that closes a set. -/
def behindSet? : Text → Option Text
  | [] => none
  | ']' :: t => some t
  | ['\\'] => none
  | '\\' :: _ :: t => behindSet? t
  | _ :: t => behindSet? t

/-- What is behind a set is shorter. -/
theorem behindSet?_length {t r : Text} (h : behindSet? t = some r) : r.length < t.length := by
  fun_induction behindSet? t with
  | case1 => simp at h
  | case2 t => cases h; exact Nat.lt_succ_self _
  | case3 => simp at h
  | case4 c t ih => have := ih h; simp only [List.length_cons]; omega
  | case5 c t _ _ _ ih => have := ih h; simp only [List.length_cons]; omega

/-- The members of a set are no longer than the set. -/
theorem members?_length {t m : Text} (h : members? t = some m) : m.length ≤ t.length := by
  simp only [members?, Option.ite_none_left_eq_some, Option.some.injEq] at h
  rw [← h.2]
  simp

/-- Whether a pattern is well formed inside the given number of open braces. -/
def isValidIn (depth : Nat) : Text → Bool
  | [] => depth = 0
  | ['\\'] => false
  | '\\' :: _ :: t => isValidIn depth t
  | '[' :: t =>
    match _h : members? t with
    | none => false
    | some members =>
      match _k : behindSet? members with
      | none => false
      | some rest => isValidIn depth rest
  | '{' :: t => isValidIn (depth + 1) t
  | '}' :: t => 0 < depth && isValidIn (depth - 1) t
  | _ :: t => isValidIn depth t
termination_by t => t.length
decreasing_by
  all_goals simp only [List.length_cons]
  any_goals omega
  have := behindSet?_length _k
  have := members?_length _h
  omega

def isValid (pattern : Text) : Bool := isValidIn 0 pattern

/-- The alternatives behind an opening brace, and the pattern behind the closing one. Braces may be
nested. -/
def alternatives? (depth : Nat) : Text → Option (List Text × Text)
  | [] => none
  | '}' :: t => if depth = 0 then some ([[]], t) else grow ['}'] (alternatives? (depth - 1) t)
  | '{' :: t => grow ['{'] (alternatives? (depth + 1) t)
  | ',' :: t =>
    if depth = 0 then (alternatives? 0 t).map fun (alts, rest) => ([] :: alts, rest)
    else grow [','] (alternatives? depth t)
  | '\\' :: c :: t => grow ['\\', c] (alternatives? depth t)
  | c :: t => grow [c] (alternatives? depth t)
where
  /-- Adds characters at the front of the first alternative. -/
  grow (cs : Text) (rest : Option (List Text × Text)) : Option (List Text × Text) :=
    rest.map fun (alts, t) =>
      match alts with
      | a :: as => ((cs ++ a) :: as, t)
      | [] => ([cs], t)

end Marginalia.Glob
