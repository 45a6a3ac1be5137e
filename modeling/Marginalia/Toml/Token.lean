import Marginalia.Text.Percent
import Marginalia.Toml.Value

/-!
# Blanks, keys and strings

The smallest parts of a configuration file. A string stands between single quotes as it is, or between
double quotes with escapes; tripled quotes allow it to span lines. Control characters other than tabs
and line ends may stand nowhere.
-/
namespace Marginalia.Toml

/-- Blanks within a line. -/
def isBlank (c : Char) : Bool := c == ' ' || c == '\t'

def skipBlanks (t : Text) : Text := t.dropWhile isBlank

/-- Control characters, but for tabs. -/
def isControl (c : Char) : Bool := (c.toNat < 0x20 && c != '\t') || c.toNat == 0x7F

/-- The text behind a line end. -/
def newline? : Text → Option Text
  | '\n' :: t => some t
  | '\r' :: '\n' :: t => some t
  | _ => none

/-- The text from the line end on that ends a comment. -/
def comment? : Text → Option Text
  | [] => some []
  | '\n' :: t => some ('\n' :: t)
  | '\r' :: '\n' :: t => some ('\r' :: '\n' :: t)
  | c :: t => if isControl c then none else comment? t

/-- The text behind a comment, if there is one at the front. -/
def skipComment? : Text → Option Text
  | '#' :: t => comment? t
  | t => some t

/-- The text behind blanks, comments and line ends. -/
def skipLines? (t : Text) : Option Text :=
  match skipComment? (skipBlanks t) with
  | none => none
  | some rest =>
    match rest with
    | '\n' :: _ | '\r' :: _ =>
      match newline? rest with
      | none => none
      | some next => if _h : next.length < t.length then skipLines? next else some next
    | _ => some rest
termination_by t.length

def hexValue? (ds : Text) : Option Nat :=
  ds.foldl (fun acc c => do return (← acc) * 16 + (← Percent.digitValue? c)) (some 0)

/-- The character with a code point of the given number of hexadecimal digits. -/
def codePoint? (count : Nat) : Reader Char := fun t => do
  if t.length < count then none
  let n ← hexValue? (t.take count)
  if n.isValidChar then some (Char.ofNat n, t.drop count) else none

/-- The character that an escape means, from behind its backslash on. -/
def escape? : Reader Char
  | '"' :: t => some ('"', t)
  | '\\' :: t => some ('\\', t)
  | 'b' :: t => some ('\x08', t)
  | 'f' :: t => some ('\x0c', t)
  | 'n' :: t => some ('\n', t)
  | 'r' :: t => some ('\r', t)
  | 't' :: t => some ('\t', t)
  | 'e' :: t => some ('\x1b', t)
  | 'u' :: t => codePoint? 4 t
  | 'U' :: t => codePoint? 8 t
  | _ => none

/-- A string on one line with escapes, from behind its opening quote on. -/
def basicString? (t : Text) : Option (Text × Text) :=
  match t with
  | [] => none
  | '"' :: t => some ([], t)
  | '\\' :: t =>
    match escape? t with
    | none => none
    | some (c, rest) =>
      if _h : rest.length ≤ t.length then (basicString? rest).map fun (s, r) => (c :: s, r) else none
  | c :: t => if isControl c then none else (basicString? t).map fun (s, r) => (c :: s, r)
termination_by t.length
decreasing_by all_goals (simp only [List.length_cons] at *; omega)

/-- A string on one line without escapes, from behind its opening quote on. -/
def literalString? : Reader Text
  | [] => none
  | '\'' :: t => some ([], t)
  | c :: t => if isControl c then none else (literalString? t).map fun (s, r) => (c :: s, r)

/-- The quotes at the end of a long string: three close it, and up to two in front of them belong to
it. Fewer than three are content. -/
def closing? (quote : Char) (t : Text) : Option (Option (Text × Text)) :=
  let run := t.takeWhile (· == quote)
  let rest := t.dropWhile (· == quote)
  if run.length < 3 then none
  else if run.length ≤ 5 then some (some (run.drop 3, rest))
  else some none

/-- The text behind a backslash that ends a line, and all blanks and line ends there. -/
def foldedLine? (t : Text) : Option Text :=
  match newline? (skipBlanks t) with
  | none => none
  | some rest => some (skipFold rest)
where
  /-- Removes blanks and line ends. -/
  skipFold : Text → Text
    | '\r' :: '\n' :: t => skipFold t
    | c :: t => if isBlank c || c == '\n' then skipFold t else c :: t
    | [] => []

/-- The content of a long string with escapes. -/
def longBasic? (t : Text) : Option (Text × Text) :=
  match closing? '"' t with
  | some found => found
  | none =>
    match t with
    | [] => none
    | '\\' :: t =>
      match foldedLine? t with
      | some rest => if _h : rest.length ≤ t.length then longBasic? rest else none
      | none =>
        match escape? t with
        | none => none
        | some (c, rest) =>
          if _h : rest.length ≤ t.length then (longBasic? rest).map fun (s, r) => (c :: s, r)
          else none
    | '\r' :: '\n' :: t => (longBasic? t).map fun (s, r) => ('\r' :: '\n' :: s, r)
    | c :: t =>
      if isControl c && c != '\n' then none else (longBasic? t).map fun (s, r) => (c :: s, r)
termination_by t.length
decreasing_by all_goals (simp only [List.length_cons] at *; omega)

/-- The content of a long string without escapes. -/
def longLiteral? (t : Text) : Option (Text × Text) :=
  match closing? '\'' t with
  | some found => found
  | none =>
    match t with
    | [] => none
    | '\r' :: '\n' :: t => (longLiteral? t).map fun (s, r) => ('\r' :: '\n' :: s, r)
    | c :: t =>
      if isControl c && c != '\n' then none else (longLiteral? t).map fun (s, r) => (c :: s, r)
termination_by t.length
decreasing_by all_goals (simp only [List.length_cons] at *; omega)

/-- A line end right behind the opening of a long string does not belong to it. -/
def dropFirstNewline (t : Text) : Text := (newline? t).getD t

def string? : Reader Text
  | '"' :: '"' :: '"' :: t => longBasic? (dropFirstNewline t)
  | '"' :: t => basicString? t
  | '\'' :: '\'' :: '\'' :: t => longLiteral? (dropFirstNewline t)
  | '\'' :: t => literalString? t
  | _ => none

/-- The characters of a key without quotes. -/
def isBareKeyChar (c : Char) : Bool := c.isAlphanum || c == '-' || c == '_'

/-- One part of a key. -/
def simpleKey? : Reader Text
  | '\'' :: t => literalString? t
  | '"' :: t => basicString? t
  | t =>
    match t.span isBareKeyChar with
    | ([], _) => none
    | (name, rest) => some (name, rest)

/-- The parts of a key, which stand between dots. The blanks behind it are removed. -/
def key? (t : Text) : Option (List Text × Text) :=
  match simpleKey? t with
  | none => none
  | some (name, rest) =>
    match skipBlanks rest with
    | '.' :: rest =>
      if _h : (skipBlanks rest).length < t.length then
        (key? (skipBlanks rest)).map fun (names, r) => (name :: names, r)
      else none
    | rest => some ([name], rest)
termination_by t.length

end Marginalia.Toml
