import Marginalia.Markdown.Definition
import Marginalia.Markdown.Span

/-!
# Links and images

A link is a text in brackets with a target: given in parentheses behind it, by the name of a
definition in a second pair of brackets, or by a definition of its own text. An image is a link with
an exclamation mark before it. Bare addresses and addresses in angle brackets are links to
themselves.
-/
namespace Marginalia.Markdown.Span

/-- The text up to the closing bracket that matches an open one, and the text behind it. A bracket
behind a backslash does not count, whatever stands in front of that backslash. -/
def matchBracket (level : Nat) (escaped : Bool) : Text → Option (Text × Text)
  | [] => none
  | c :: cs =>
    let go (level : Nat) :=
      (matchBracket level (c == '\\') cs).map fun (inside, after) => (c :: inside, after)
    if c = '\n' ∨ escaped then go level
    else if c = '[' then go (level + 1)
    else if c = ']' then if level = 0 then some ([], cs) else go (level - 1)
    else go level

/-- The target of a link up to its closing parenthesis or the quote of a title. Parentheses inside
it are balanced, and a backslash takes the next character along. -/
def linkTarget (depth : Nat) : Text → Option (Text × Text)
  | [] => none
  | '\\' :: c :: cs => (linkTarget depth cs).map fun (l, rest) => ('\\' :: c :: l, rest)
  | c :: cs =>
    if c = ')' ∧ depth = 0 ∨ c = '\'' ∨ c = '"' then some ([], c :: cs)
    else
      let depth := if c = '(' then depth + 1 else if c = ')' then depth - 1 else depth
      (linkTarget depth cs).map fun (l, rest) => (c :: l, rest)

/-- The title of a link: everything up to the first closing parenthesis behind a closing quote. -/
def linkTitle (quote : Char) (closed : Bool) : Text → Option (Text × Text)
  | [] => none
  | ['\\'] => none
  | '\\' :: c :: cs => (linkTitle quote closed cs).map fun (l, rest) => ('\\' :: c :: l, rest)
  | c :: cs =>
    if closed ∧ c = ')' then some ([], cs)
    else (linkTitle quote (closed || c == quote) cs).map fun (l, rest) => (c :: l, rest)

/-- A target without white space behind it and without angle brackets around it. -/
def bareTarget (t : Text) : Text :=
  Text.dropEnding ">" (Text.dropOpening "<" (Text.trimEnd isBlankChar t))

/-- Target, title and rest of a link, from behind its opening parenthesis on. -/
def inlineTarget? (t : Text) : Option (Text × Option Text × Text) :=
  match linkTarget 0 (t.dropWhile isBlankChar) with
  | none => none
  | some (target, ')' :: rest) => some (bareTarget target, none, rest)
  | some (target, quote :: behind) =>
    match linkTitle quote false behind with
    | none => none
    | some (titled, rest) =>
      let trimmed := Text.trimEnd isBlankChar titled
      match trimmed.reverse with
      | q :: front =>
        if q = '\'' ∨ q = '"' then
          some (bareTarget target, some front.reverse, rest)
        else some (bareTarget (target ++ quote :: titled), none, rest)
      | [] => some (bareTarget (target ++ quote :: titled), none, rest)
  | some (_, []) => none

/-- The name by which a text refers to a definition: its line feeds are spaces. -/
def nameOf (before : Char) : Text → Text
  | [] => []
  | c :: cs =>
    if c = '\n' then (if before = ' ' then nameOf c cs else ' ' :: nameOf c cs)
    else c :: nameOf c cs

/-- A link or an image whose opening bracket is the first character of the text, with the number of
characters behind that bracket. -/
def bracketed? (definitions : List LinkDefinition) (behind : Text) :
    Option (Nat × Text × Text × Option Text) :=
  match matchBracket 0 false behind with
  | none => none
  | some (inside, after) =>
    let defined (name : Text) (rest : Text) : Option (Nat × Text × Text × Option Text) :=
      (LinkDefinition.find? definitions name).map fun d =>
        (behind.length - rest.length, inside, d.target, some d.title)
    match after.dropWhile isBlankChar with
    | '(' :: t =>
      (inlineTarget? t).map fun (target, title?, rest) =>
        (behind.length - rest.length, inside, target, title?)
    | '[' :: c :: t =>
      if c = '^' then defined (nameOf '[' inside) after
      else
        let name := (c :: t).takeWhile (· ≠ ']')
        match (c :: t).drop name.length with
        | [] => none
        | _ :: rest => defined (if name.isEmpty then nameOf '[' inside else name) rest
    | _ => defined (nameOf '[' inside) after

/-- The schemes that make an address a link. -/
def safeSchemes : List Text := ["http://", "https://", "ftp://", "mailto:"]

/-- Whether a text starts with an address that may be linked. -/
def startsAddress (t : Text) : Bool :=
  let path := ([("/" : Text), "./", "../"]).any fun p =>
    match Text.dropOpening? p t with
    | some [] => true
    | some (c :: _) => c.isAlphanum
    | none => false
  let scheme := safeSchemes.any fun p =>
    match Text.dropOpening? p ((t.take p.length).map Char.toLower ++ t.drop p.length) with
    | some (c :: _) => c.isAlphanum
    | _ => false
  path || scheme

/-- Whether a text starts with one of the schemes at which bare addresses are looked for. -/
def startsScheme (t : Text) : Bool :=
  (safeSchemes ++ [("file://" : Text)]).any fun p => Text.opens p ((t.take p.length).map Char.toLower)

/-- Whether a text ends with a character entity of two to five small letters. -/
def endsWithEntity (t : Text) : Bool :=
  match t.reverse with
  | ';' :: back =>
    let name := back.takeWhile Char.isLower
    2 ≤ name.length && name.length ≤ 5 && (back.drop name.length).head? == some '&'
  | _ => false

/-- Number of closing delimiters that stay open over a text read backwards on its last line. -/
def unbalanced (opening closing : Char) : Nat → Text → Nat
  | 0, _ => 0
  | n, [] => n
  | n, c :: cs =>
    if c = '\n' then n
    else
      let n := if c = closing then n + 1 else n
      unbalanced opening closing (if c = opening then n - 1 else n) cs

/-- The opening delimiter that belongs to a closing one. -/
def openingOf? : Char → Option Char
  | '"' => some '"'
  | '\'' => some '\''
  | ')' => some '('
  | ']' => some '['
  | '}' => some '\x7b'
  | _ => none

/-- Removes a last character that satisfies a test and is not escaped. -/
def dropLast (p : Text → Char → Bool) (t : Text) : Text :=
  match t.reverse with
  | c :: front => if front.head? != some '\\' && p t c then front.reverse else t
  | [] => t

/-- The address at the front of a text. A final period, comma or semicolon does not belong to it,
nor does a closing delimiter that was opened on the same line in front of it. -/
def bareAddress (before rest : Text) : Text :=
  let whole := rest.takeWhile fun c => !(isBlankChar c || c == '<')
  let t := dropLast (fun _ c => c == '.' || c == ',') whole
  let t := dropLast (fun t c => c == ';' && !endsWithEntity t) t
  match t.reverse with
  | c :: front =>
    match openingOf? c with
    | some o => if unbalanced o c 1 (front ++ before) = 0 then front.reverse else t
    | none => t
  | [] => t

/-- The text behind a run of address characters that starts like an address. -/
def dropAddress? (t : Text) : Option Text :=
  let plain (c : Char) : Bool :=
    c.isAlphanum || ("-+&@#/%?=~_|!:,.;()" : Text).contains c
  ([("http://" : Text), "https://", "ftp://", "/"]).findSome? fun p =>
    match Text.dropOpening? p t with
    | some (c :: cs) => if plain c then some (cs.dropWhile plain) else none
    | _ => none

/-- The text behind one white space character. -/
def dropBlank? : Text → Option Text
  | c :: cs => if isBlankChar c && c != '\x0b' then some cs else none
  | [] => none

/-- The text behind an anchor element whose target and content are both addresses. -/
def dropAnchor? (t : Text) : Option Text := do
  let t ← Text.dropOpening? "<a" t
  let t ← dropBlank? t
  let t ← Text.dropOpening? "href=\"" t
  let t ← dropAddress? t
  let t ← Text.dropOpening? "\"" t
  let titled? : Option Text := do
    let t ← dropBlank? t
    let t ← Text.dropOpening? "title=\"" t
    let title := t.takeWhile fun c => c != '"' && c != '<' && c != '>'
    if title.isEmpty then none else Text.dropOpening? "\"" (t.drop title.length)
  let t := titled?.getD t
  let t := (dropBlank? t).getD t
  let t ← Text.dropOpening? ">" t
  let t ← dropAddress? t
  Text.dropOpening? "</a>" t

/-- The rest of an anchor element around the given place, as markup. -/
def insideAnchor? (before rest : Text) : Option (Nat × Option Span) :=
  let back := before.takeWhile (· ≠ '<')
  if before.length ≤ back.length then none
  else
    (dropAnchor? ('<' :: (back.reverse ++ rest))).bind fun behind =>
      let n := rest.length - behind.length
      if n = 0 ∨ rest.length < behind.length then none
      else some (n, some (.markup (rest.take n)))

/-- A bare address as a link. The text before it is given backwards. -/
def autolink? (before rest : Text) : Option (Nat × Option Span) :=
  if !startsScheme rest then none
  else
    match insideAnchor? before rest with
    | some result => some result
    | none =>
      if before.head?.any Char.isAlpha || !startsAddress rest then none
      else
        let address := bareAddress before rest
        let target := unescape address
        if address.isEmpty then none
        else some (address.length, some (.link target [] [.text target]))

/-- The number of characters of a mail address and its closing angle bracket, from its at sign on. -/
def mailLength? (ats : Nat) : Text → Option Nat
  | [] => none
  | c :: cs =>
    if c = '>' then if ats = 1 then some 1 else none
    else if c = '@' then (mailLength? (ats + 1) cs).map (· + 1)
    else if c.isAlphanum || c = '-' || c = '.' || c = '_' then (mailLength? ats cs).map (· + 1)
    else none

/-- Where an address in angle brackets ends: at its closing bracket or at a character that cannot belong
to it, behind so many characters. -/
inductive AddressEnd where
  | closed (n : Nat)
  | broken (n : Nat)

/-- The end of an address, if it has one. A backslash takes the next character along. -/
def addressEnd? (n : Nat) : Text → Option AddressEnd
  | [] => none
  | ['\\'] => none
  | '\\' :: _ :: cs => addressEnd? (n + 2) cs
  | c :: cs =>
    if c = '>' then some (.closed n)
    else if c = '\'' || c = '"' || isBlankChar c then some (.broken n)
    else addressEnd? (n + 1) cs

/-- What stands in angle brackets: a tag, an address or a mail address, with its length. -/
inductive Angled where
  | tag (n : Nat)
  | address (n : Nat)
  | mail (n : Nat)

/-- A tag, looked for from the given place on. One that is not closed ends there. -/
def tagFrom (t : Text) (i : Nat) : Angled :=
  match (t.drop i).findIdx? (· == '>') with
  | some k => .tag (i + k + 1)
  | none => .tag i

/-- The construct in angle brackets at the front of a text. -/
def angled? (t : Text) : Option Angled :=
  let slash := if t[1]? = some '/' then 1 else 0
  let name := t.drop (1 + slash)
  if t.byteLength < 3 ∨ !(name.head?.any Char.isAlphanum) then none
  else
    let scheme := name.takeWhile fun c => c.isAlphanum || c == '.' || c == '+' || c == '-'
    let i := 1 + slash + scheme.length
    match t.drop i with
    | '@' :: behind =>
      match mailLength? 0 ('@' :: behind) with
      | some n => some (.mail (i + n))
      | none => some (tagFrom t i)
    | ':' :: address =>
      if i ≤ 2 then some (tagFrom t i)
      else if address.isEmpty then some (tagFrom t (i + 1))
      else
        (addressEnd? 0 address).map fun
          | .closed 0 => tagFrom t (i + 1)
          | .closed n => .address (i + n + 2)
          | .broken n => tagFrom t (i + 1 + n)
    | _ => some (tagFrom t i)

/-- The length of a comment at the front of a text. -/
def commentLength? (t : Text) : Option Nat :=
  match Text.dropOpening? "<!--" t with
  | none => none
  | some body =>
    match Text.cut? "-->" ('-' :: body) with
    | some (inside, _) => some (inside.length + 6)
    | none => none

/-- The text of a link to an address: a mail address goes without its scheme. -/
def shownAddress (address : Text) : Text :=
  match Text.dropOpening? "mailto://" address with
  | some t => t
  | none => Text.dropOpening "mailto:" address

/-- Markup or an address in angle brackets. Markup of at most two characters leaves nothing. -/
def angle? (rest : Text) : Option (Nat × Option Span) :=
  match commentLength? rest with
  | some n => some (n, some (.markup (rest.take n)))
  | none =>
    let link (n : Nat) (scheme : Text) : Nat × Option Span :=
      let address := unescape ((rest.take (n - 1)).drop 1)
      if address.isEmpty then (n, none)
      else (n, some (.link (scheme ++ address) [] [.text (shownAddress address)]))
    match angled? rest with
    | none => none
    | some (.tag n) => some (n, if n ≤ 2 then none else some (.markup (rest.take n)))
    | some (.address n) => some (link n [])
    | some (.mail n) => some (link n "mailto:")

end Marginalia.Markdown.Span
