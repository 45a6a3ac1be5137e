import Marginalia.Markdown.Info
import Marginalia.Markdown.Span.Emphasis
import Marginalia.Markdown.Span.Link

/-!
# Reading inline content

Inline content is read from left to right. At a character that may open a construct the construct is
tried; if it is there, the text before it and the construct become spans, and otherwise the
character is text. Constructs nest to a fixed depth.
-/
namespace Marginalia.Markdown.Span

/-- How deep constructs nest; what lies deeper is dropped. -/
def maxDepth : Nat := 64

/-- Spaces before a line feed: two or more make a line break, a single one is dropped. -/
def trailingSpaces? (rest : Text) : Option (Nat × Option Span) :=
  let n := (rest.takeWhile (· == ' ')).length
  if (rest.drop n).head? = some '\n' then
    if 2 ≤ n then some (n + 1, some .lineBreak) else some (n, none)
  else none

/-- The number of characters up to the end of the first run of `n` back quotes, `run` of which have
been seen. -/
def closingQuotes? (n run : Nat) : Text → Option Nat
  | [] => if run = n then some 0 else none
  | c :: cs =>
    if run = n then some 0
    else (closingQuotes? n (if c = backquote then run + 1 else 0) cs).map (· + 1)

/-- The code between two runs of back quotes, without the spaces around it. Runs of three set code of
several lines apart from the text if nothing but white space follows in the line. -/
def codeOf (n : Nat) (body code after : Text) : Span :=
  if n = 3 ∧ body.contains '\n' ∧ (Text.firstLine after).all isBlankChar then
    match Info.read? code with
    | some (info, literal) => .codeLines info literal
    | none => .codeLines [] code
  else .code code

/-- A code span: text between two equal runs of back quotes. -/
def codeSpan? (rest : Text) : Option (Nat × Option Span) :=
  let n := (rest.takeWhile (· == backquote)).length
  (closingQuotes? n 0 (rest.drop n)).map fun m =>
    let body := (rest.drop n).take (m - n)
    let code := Text.trimEnd (· == ' ') (Text.trimStart (· == ' ') body)
    (n + m, if code.isEmpty then none else some (codeOf n body code (rest.drop (n + m))))

/-- The characters that a backslash makes ordinary. -/
def escapable : Text := "\\\x60*_\x7b\x7d[]()#+-.!:|&<>~^$"

/-- A backslash: it makes the next character ordinary, or breaks the line in front of a line feed. A
last lone backslash is dropped. -/
def escape? : Text → Option (Nat × Option Span)
  | _ :: c :: _ =>
    if c = '\n' then some (2, some .lineBreak)
    else if escapable.contains c then some (2, some (.text [c]))
    else none
  | _ => some (2, none)

/-- The number that digits denote in a base. -/
def numeral? (base : Nat) (t : Text) : Option Nat :=
  if t.isEmpty then none
  else
    t.foldl (fun acc c => do
      let value ←
        if c.isDigit then some (c.toNat - 48)
        else if 'a' ≤ c ∧ c ≤ 'f' then some (c.toNat - 87)
        else if 'A' ≤ c ∧ c ≤ 'F' then some (c.toNat - 55)
        else none
      if value < base then return (← acc) * base + value else none) (some 0)

/-- A character entity. Numeric entities stand for their character, the others for themselves. -/
def entity? (rest : Text) : Option (Nat × Option Span) :=
  let hash := if rest[1]? = some '#' then 1 else 0
  let name := (rest.drop (1 + hash)).takeWhile Char.isAlphanum
  let n := 1 + hash + name.length + 1
  if rest[n - 1]? ≠ some ';' then none
  else
    let whole := rest.take n
    if whole = ("&amp;" : Text) then some (n, some (.text ['&']))
    else if n < 4 then some (n, some (.text whole))
    else
      let digits := (rest.take (n - 1)).drop 2
      let number? :=
        match digits with
        | 'x' :: ds => numeral? 16 ds
        | 'X' :: ds => numeral? 16 ds
        | ds => numeral? 10 ds
      match number? with
      | some k =>
        if k < 0x10000000000000000 then
          let low := k % 0x100000000
          some (n, some (.text [if low.isValidChar then Char.ofNat low else '\uFFFD']))
        else some (n, some (.text whole))
      | none => some (n, some (.text whole))

/-- A formula between single dollar signs. -/
def formula? : Text → Option (Nat × Option Span)
  | _ :: body =>
    let inside := body.takeWhile (· ≠ '$')
    if body.head? = some '$' ∨ body.length ≤ inside.length then none
    else some (inside.length + 2, some (.math inside))
  | [] => none

/-- A superscript between carets, without white space in it. The end of the text closes it too. -/
def superscript? : Text → Option (Nat × Option Span)
  | _ :: body =>
    let inside := body.takeWhile (· ≠ '^')
    if (withEscapes inside).any fun (c, escaped) => isBlankChar c && !escaped then none
    else some (inside.length + 2, some (.superscript inside))
  | [] => none

section

variable (inner : Bool → Text → List Span) (definitions : List LinkDefinition) (insideLink : Bool)

/-- A link whose bracket is the first character. Inside a link a bracket that follows another one,
or precedes a caret, opens none. -/
def link? (before rest : Text) : Option (Nat × Option Span) :=
  if insideLink && (before.head? == some '[' || rest[1]? == some '^') then none
  else
    (bracketed? definitions (rest.drop 1)).map fun (n, inside, target, title?) =>
      (n + 1, some (.link (unescape target) (title?.getD []) (inner true inside)))

/-- An image whose exclamation mark is the first character. -/
def image? (before rest : Text) : Option (Nat × Option Span) :=
  if insideLink && (before.head? == some '[' || rest[1]? == some '^') then none
  else
    (bracketed? definitions (rest.drop 2)).map fun (n, inside, source, title?) =>
      (n + 2, some (.image (unescape source) title? inside))

/-- The construct at the front of a text, with its length; some constructs leave no span. The text
before it is given backwards. -/
def construct? (before rest : Text) : Option (Nat × Option Span) :=
  match rest with
  | [] => none
  | c :: cs =>
    if c = ' ' then trailingSpaces? rest
    else if c = '*' ∨ c = '_' ∨ c = '~' then
      (emphasis? (inner insideLink) rest).map fun (n, s) => (n, some s)
    else if c = backquote then codeSpan? rest
    else if c = '[' then link? inner definitions insideLink before rest
    else if c = '<' then angle? rest
    else if c = '\\' then escape? rest
    else if c = '&' then entity? rest
    else if c = '!' then
      if cs.head? = some '[' then image? definitions insideLink before rest else none
    else if c = '^' then
      if cs.head? = some '[' then link? inner definitions insideLink before rest
      else superscript? rest
    else if c = '$' then formula? rest
    else if ("hmfHMF" : Text).contains c then
      if insideLink then none else autolink? before rest
    else none

/-- Text becomes a span unless it is empty. -/
def ofPending (pending : Text) : List Span :=
  if pending.isEmpty then [] else [.text pending.reverse]

/-- Reads inline content. The text since the last construct and the whole text before the place are
given backwards. A last line feed is dropped. -/
def readFrom (before pending rest : Text) : List Span :=
  match rest with
  | [] => ofPending (match pending with | '\n' :: p => p | p => p)
  | c :: cs =>
    match construct? inner definitions insideLink before (c :: cs) with
    | none => readFrom (c :: before) (c :: pending) cs
    | some (n, span?) =>
      let taken := c :: cs.take (n - 1)
      ofPending pending ++ span?.toList ++ readFrom (taken.reverse ++ before) [] (cs.drop (n - 1))
termination_by rest.length
decreasing_by all_goals (simp only [List.length_cons, List.length_drop]; omega)

end

/-- Reads inline content down to a depth. -/
def readTo (definitions : List LinkDefinition) : Nat → Bool → Text → List Span
  | 0, _, _ => []
  | depth + 1, insideLink, t => readFrom (readTo definitions depth) definitions insideLink [] [] t

def read (definitions : List LinkDefinition) (t : Text) : List Span :=
  readTo definitions maxDepth false t

end Marginalia.Markdown.Span
