import Marginalia.Glob

/-!
# Comparing patterns with paths

A pattern and a path are compared from left to right. Where they differ, the last star takes one more
character, if that is no slash; failing that, the last double star takes one more component. Stars in
front of the last one are not tried again. Alternatives are tried in order, each with the stars as they
stand where its brace was reached; one that turns out to be malformed ends the comparison.
-/
namespace Marginalia.Glob

inductive Verdict where
  | yes
  | no
  | malformed
deriving DecidableEq, Repr

/-- The first outcome unless it is a plain no. -/
def Verdict.orElse (a : Verdict) (b : Unit → Verdict) : Verdict :=
  match a with
  | .no => b ()
  | v => v

/-- The low end of a range that a member of a set may begin. The last of all characters begins none. -/
def lowEnd? (c : Char) : Option Char := if c.toNat < 0x10FFFF then some c else none

/-- Looks for a character among the members of a set: whether it is one of them, and the pattern from
the place where this is known. The member in front may be the low end of a range. -/
def seek (c : Char) : Option Char → Text → Bool × Text
  | _, [] => (false, [])
  | _, ']' :: t => (false, ']' :: t)
  | some low, '-' :: '\\' :: high :: t => if low ≤ c ∧ c ≤ high then (true, t) else seek c none t
  | some _, '-' :: ']' :: t => (c == '-', ']' :: t)
  | some low, '-' :: high :: t => if low ≤ c ∧ c ≤ high then (true, t) else seek c none t
  | _, '\\' :: d :: t => if c = d then (true, t) else seek c (lowEnd? d) t
  | _, d :: t => if c = d then (true, t) else seek c (lowEnd? d) t

/-- How a comparison goes on at one character of a path. -/
inductive Step where
  /-- The rest of the path is taken, whatever it is. -/
  | everything
  /-- The character is taken; the flag says whether a component begins behind it. -/
  | taken (atStart : Bool) (pattern : Text)
  /-- A star, with the pattern behind it. -/
  | star (pattern : Text)
  /-- A double star that is a whole component, with the pattern behind its slash. -/
  | deep (pattern : Text)
  /-- Alternatives, with the pattern behind them. -/
  | choice (alternatives : List Text) (rest : Text)
  /-- The character does not fit, with the pattern from there on. -/
  | differs (pattern : Text)
  | malformed
deriving DecidableEq, Repr

/-- A set, from behind its opening bracket on, at a character of a path. -/
def setStep (t : Text) (c : Char) : Step :=
  match members? t with
  | none => .malformed
  | some members =>
    let (found, rest) := seek c none members
    if found = isNegated t then if rest.isEmpty then .malformed else .differs rest
    else
      match behindSet? rest with
      | none => .malformed
      | some behind => .taken false behind

/-- The step of a pattern at a character of a path. A double star stands for components only where one
begins. -/
def step (atStart : Bool) (pattern : Text) (c : Char) : Step :=
  match pattern with
  | [] => .differs []
  | '*' :: '*' :: t =>
    if atStart then
      match t with
      | [] => .everything
      | '/' :: t => .deep t
      | t => .star t
    else .star t
  | '*' :: t => .star t
  | '?' :: t => if c = '/' then .differs pattern else .taken false t
  | '[' :: t => setStep t c
  | '{' :: t =>
    match alternatives? 0 t with
    | none => .malformed
    | some (alts, rest) => .choice alts rest
  | ['\\'] => .malformed
  | '\\' :: d :: t => if c = d then .taken (d == '/') t else .differs pattern
  | d :: t => if c = d then .taken (d == '/') t else .differs pattern

/-- Whether a pattern stands for nothing at all at the end of a path. A component that may be missing
takes the slash beside it along. -/
def vacuous (pattern : Text) : Verdict :=
  if ([[], "*", "**", "/**", "**/", "/**/"] : List Text).contains pattern then .yes
  else
    match pattern with
    | '{' :: t =>
      match alternatives? 0 t with
      | none => .malformed
      | some (alts, rest) =>
        alts.foldl
          (fun v a => v.orElse fun _ =>
            if _h : (a ++ rest).length ≤ t.length then vacuous (a ++ rest) else .no) .no
    | p => if isValid p then .no else .malformed
termination_by pattern.length
decreasing_by simp only [List.length_cons]; omega

def behindSlash? : Text → Option Text
  | [] => none
  | '/' :: t => some t
  | _ :: t => behindSlash? t

/-- A star that may take more: the pattern behind it and the path behind what it has taken. -/
structure Star where
  pattern : Text
  path : Text
deriving DecidableEq, Repr

/-- A comparison on its way: the rest of the pattern and of the path, whether a component begins here,
and the last star and the last double star. -/
structure Comparison where
  pattern : Text
  path : Text
  atStart : Bool := true
  star? : Option Star := none
  deep? : Option Star := none
deriving DecidableEq, Repr

namespace Comparison

/-- The comparison with another pattern from here on, which the stars see too. -/
def withPattern (s : Comparison) (pattern : Text) : Comparison :=
  let adapt (r : Star) : Star :=
    { r with pattern := r.pattern.take (r.pattern.length - s.pattern.length) ++ pattern }
  { s with pattern, atStart := true, star? := s.star?.map adapt, deep? := s.deep?.map adapt }

/-- The comparison after the last star has taken one more character. -/
def growStar? (s : Comparison) : Option Comparison := do
  let r ← s.star?
  match r.path with
  | [] => none
  | c :: path =>
    if c = '/' then none
    else
      return { s with pattern := r.pattern, path, atStart := false, star? := some { r with path } }

/-- The comparison after the last double star has taken one more component. -/
def growDeep? (s : Comparison) : Option Comparison := do
  let r ← s.deep?
  let path ← behindSlash? r.path
  return { s with pattern := r.pattern, path, atStart := true, star? := none,
                  deep? := some { r with path } }

/-- The outcome of a comparison. A strict one also looks at the part of the pattern that it does not
reach. The fuel bounds the number of steps. -/
def outcome (strict : Bool) : Nat → Comparison → Verdict
  | 0, _ => .no
  | fuel + 1, s =>
    match s.path with
    | [] => vacuous s.pattern
    | c :: path =>
      match step s.atStart s.pattern c with
      | .everything => .yes
      | .malformed => .malformed
      | .taken atStart pattern => outcome strict fuel { s with pattern, path, atStart }
      | .star pattern =>
        outcome strict fuel
          { s with pattern, atStart := false, star? := some { pattern, path := s.path } }
      | .deep pattern =>
        outcome strict fuel { s with pattern, star? := none, deep? := some { pattern, path := s.path } }
      | .choice alts rest =>
        alts.foldl (fun v a => v.orElse fun _ => outcome strict fuel (s.withPattern (a ++ rest))) .no
      | .differs pattern =>
        match s.growStar?.or s.growDeep? with
        | some s => outcome strict fuel s
        | none => if strict && !isValid pattern then .malformed else .no

end Comparison

/-- Compares a pattern with a path. In each of its steps the place in the pattern moves on, or the last
star or double star moves on and the places behind it start anew, and alternatives shorten the pattern;
so the steps are fewer than the fuel. -/
def compare (strict : Bool) (pattern path : Text) : Verdict :=
  let n := pattern.length + 2
  let m := path.length + 2
  Comparison.outcome strict (n * n * n * n * (m * m)) { pattern, path }

def stands (pattern path : Text) : Bool := compare true pattern path == .yes

end Marginalia.Glob
