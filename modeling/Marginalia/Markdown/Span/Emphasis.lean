import Marginalia.Markdown.Glyph
import Marginalia.Markdown.Span

/-!
# Emphasis

Emphasis stands between equal runs of one, two or three marks. The opening run is followed, and the
closing run preceded, by something other than white space, and a single mark closes emphasis only at
the end of a word. Marks inside code and inside the text of a link do not count.
-/
namespace Marginalia.Markdown.Span

def backquote : Char := '\x60'

/-- How the search for a closing mark goes on at one character. -/
inductive MarkSearch where
  /-- The search ends with an index, zero for failure. -/
  | found (i : Nat)
  /-- The search goes on behind this character and so many more. -/
  | skip (n : Nat)

/-- One step of the search for a closing mark, at character `c` with index `i` and the text `cs`
behind it. Code spans and links are stepped over; one that does not end gives way to the first mark
inside it. -/
def markStep (mark : Char) (i : Nat) (escaped : Bool) (c : Char) (cs : Text) : MarkSearch :=
  if (c ≠ mark ∧ c ≠ backquote ∧ c ≠ '[') ∨ escaped then .skip 0
  else if c = mark then .found i
  else
    let stop := if c = backquote then backquote else ']'
    let inside := cs.takeWhile (· ≠ stop)
    let early := match inside.findIdx? (· == mark) with
      | some k => i + 1 + k
      | none => 0
    match cs.drop inside.length with
    | [] => .found early
    | _ :: after =>
      if c = backquote then .skip (inside.length + 1)
      else
        let gap := after.takeWhile fun d => d == ' ' || d == '\n'
        match after.drop gap.length with
        | [] => .found early
        | bracket :: target =>
          if bracket ≠ '[' ∧ bracket ≠ '(' then
            if 0 < early then .found early else .skip (inside.length + 1 + gap.length)
          else
            let reach := target.takeWhile (· ≠ bracket)
            match (if early = 0 then reach.findIdx? (· == mark) else none) with
            | some m => .found (i + inside.length + gap.length + 3 + m)
            | none =>
              if target.length ≤ reach.length then .found early
              else .skip (inside.length + gap.length + reach.length + 3)

/-- The index of the first place where a mark may close emphasis, zero if there is none. The text
starts at index `i`, and `escaped` says whether a backslash stands before it. -/
def closingMark (mark : Char) (i : Nat) (escaped : Bool) (t : Text) : Nat :=
  match t with
  | [] => 0
  | c :: cs =>
    match markStep mark i escaped c cs with
    | .found j => j
    | .skip n => closingMark mark (i + 1 + n) (n == 0 && c == '\\') (cs.drop n)
termination_by t.length
decreasing_by simp only [List.length_cons, List.length_drop]; omega

/-- Whether white space stands right before an index. -/
def blankBefore (t : Text) (i : Nat) : Bool := (t[i - 1]?).any isBlankChar

/-- The content of emphasis closed by one mark. Doubled marks are stepped over. The fuel bounds the
number of doubled marks. -/
def single? (mark : Char) : Nat → Nat → Text → Option Nat
  | 0, _, _ => none
  | fuel + 1, start, t =>
    let n := closingMark mark 0 false (t.drop start)
    let i := start + n
    if n = 0 ∨ t.length ≤ i then none
    else if t[i + 1]? = some mark then single? mark fuel (i + 2) t
    else if blankBefore t i then none
    else
      match t[i + 1]? with
      | none => some i
      | some c => if isBlankChar c || isPunctuation c then some i else none

/-- The length of the text that one mark closes. Two marks at its front belong to it. -/
def emphasisLength? (mark : Char) (t : Text) : Option Nat :=
  let doubled := t.head? = some mark ∧ t[1]? = some mark
  single? mark t.length (if doubled then 2 else 0) t

/-- The length of the text that two marks close, searched from an index on. -/
def double? (mark : Char) : Nat → Nat → Text → Option Nat
  | 0, _, _ => none
  | fuel + 1, start, t =>
    let n := closingMark mark 0 false (t.drop start)
    let i := start + n
    if n = 0 then none
    else if t[i]? = some mark ∧ t[i + 1]? = some mark ∧ !blankBefore t i then some i
    else double? mark fuel (i + 1) t

/-- The length of the text that two marks close. -/
def strongLength? (mark : Char) (t : Text) : Option Nat := double? mark t.length 0 t

/-- The span that the marks at the front of a text open, with the number of its characters. The
argument `inner` reads inline content. -/
def emphasis? (inner : Text → List Span) : Text → Option (Nat × Span)
  | [] => none
  | mark :: t =>
    let size := Text.byteLength (mark :: t)
    match t with
    | [] => none
    | a :: t₁ =>
      if a ≠ mark then
        if size ≤ 2 ∨ isBlankChar a then none
        else if mark = '~' then
          let body := t.takeWhile (· ≠ '~')
          let gapped := (('~', false) :: withEscapes body).any fun (c, escaped) =>
            isBlankChar c && !escaped
          if gapped then none else some (body.length + 2, .subscript body)
        else
          (emphasisLength? mark t).map fun i => (i + 2, .emphasis (inner (t.take i)))
      else
        match t₁ with
        | [] => none
        | b :: t₂ =>
          if b ≠ mark then
            if size ≤ 3 ∨ isBlankChar b then none
            else
              (strongLength? mark t₁).map fun i =>
                let content := inner (t₁.take i)
                (i + 4, if mark = '~' then .deleted content else .strong content)
          else
            match t₂ with
            | [] => none
            | c :: _ =>
              if c = mark ∨ size ≤ 4 ∨ mark = '~' ∨ isBlankChar c then none
              else
                let i := closingMark mark 0 false t₂
                if i = 0 ∨ blankBefore t₂ i then none
                else if t₂[i + 1]? = some mark then
                  if t₂[i + 2]? = some mark then
                    some (i + 6, .strong [.emphasis (inner (t₂.take i))])
                  else
                    (emphasisLength? mark t).map fun i => (i + 2, .emphasis (inner (t.take i)))
                else
                  (strongLength? mark t₁).map fun i => (i + 4, .strong (inner (t₁.take i)))

end Marginalia.Markdown.Span
