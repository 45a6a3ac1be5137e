import Marginalia.Glob.Comparison
import Marginalia.Workspace.Basic

/-!
# The files that a pattern stands for

A pattern is expanded against the tree of a workspace. Its last component is compared with the names in
the directories that the components before it stand for, and those are expanded in the same way. A
pattern that ends in braces is expanded once for each alternative. Paths are looked up below the
directory in which the pattern starts, and never lead out of it.
-/
namespace Marginalia.Glob

/-- Removes the backslashes in front of characters with a meaning. -/
def unescape : Text → Text
  | [] => []
  | '\\' :: c :: t =>
    if ("*?[]\x7b\x7d" : Text).contains c then c :: unescape t else '\\' :: unescape (c :: t)
  | c :: t => c :: unescape t

/-- The place of the first character with a meaning, not counting those behind a backslash. -/
def firstMeta? : Text → Option Nat
  | [] => none
  | '\\' :: _ :: t => (firstMeta? t).map (· + 2)
  | c :: t => if isMeta c then some 0 else (firstMeta? t).map (· + 1)

/-- The place of the last character of a class that has no backslash in front of it. -/
def lastOf? (p : Char → Bool) (t : Text) : Option Nat :=
  (List.range t.length).reverse.find? fun i =>
    t[i]?.any p && (i == 0 || t[i - 1]? != some '\\')

/-- The place of the brace that opens what a brace behind the text closes. -/
def openingBrace? (t : Text) : Option Nat :=
  go 0 t.reverse
where
  /-- Searches backwards past the given number of closed braces. -/
  go (depth : Nat) : Text → Option Nat
    | [] => none
    | c :: before =>
      let isPlain := before.head? != some '\\'
      if isPlain && c == '}' then go (depth + 1) before
      else if isPlain && c == '\x7b' then if depth = 0 then some before.length else go (depth - 1) before
      else go depth before

structure Malformed where
deriving DecidableEq, Repr

/-- A directory of a workspace in which patterns are expanded. -/
structure Ground where
  workspace : Workspace
  place : Location

namespace Ground

/-- What a path leads to. A path from here has no empty component, no dots and no slash at its ends. -/
def node? (g : Ground) (path : Text) : Option Node :=
  let names := Text.splitAtChar '/' path
  if path ≠ Path.here ∧ names.any (fun n => n = [] ∨ n = Path.here ∨ n = Path.up) then none
  else
    match g.workspace.walk g.place names with
    | .error _ => none
    | .ok place =>
      match g.workspace.node? place with
      | some .loop => none
      | n? => n?

def isDirectory (g : Ground) (path : Text) : Bool := g.node? path == some .directory

/-- The ways from a directory to everything below it. -/
def below (g : Ground) (directory : Text) : List (List Text × Node) :=
  if !g.isDirectory directory then []
  else
    let start := g.place ++ (if directory = Path.here then [] else Path.names directory)
    g.workspace.nodes.filterMap fun (p, n) =>
      if start.length < p.length ∧ p.take start.length = start then some (p.drop start.length, n)
      else none

/-- What a pattern without a slash finds in a directory: files, or else directories. A double star finds
all of them below it, and the directory itself. -/
def search (g : Ground) (files : Bool) (directory pattern : Text) :
    Except Malformed (List Text) :=
  let wanted (n : Node) : Bool := (n == .directory) != files
  let itself : List Text := if !files && g.isDirectory directory then [directory] else []
  if pattern = [] then .ok itself
  else if pattern = "**" then
    .ok (itself ++ (g.below directory).filterMap fun (way, n) =>
      if wanted n then some (Path.join (directory :: way)) else none)
  else do
    let found ← (g.below directory).filterMapM fun (way, n) =>
      match way with
      | [name] =>
        match compare false pattern name with
        | .malformed => .error {}
        | v => .ok (if v == .yes && wanted n then some (Path.join [directory, name]) else none)
      | _ => .ok none
    return found

def beneath (directory path : Text) : Text :=
  if directory = [] ∨ directory = Path.here then path else directory ++ "/" ++ path

/-- What a path without patterns leads to, if it is wanted; a slash at its end does not count. -/
def named (g : Ground) (files : Bool) (path : Text) : List Text :=
  let bare := if 1 < path.length then Text.dropEnding "/" path else path
  match g.node? bare with
  | none => []
  | some n => if files && n == .directory then [] else [path]

/-- The alternatives of a text between braces. An empty one at the end does not count. -/
def alternatives (inside : Text) : List Text :=
  match alternatives? 0 (inside ++ ['\x7d']) with
  | none => []
  | some (alts, _) => if alts.getLast? = some [] then alts.dropLast else alts

/-- What a pattern finds below a directory: files, or else directories. Every step shortens the pattern,
so that its length is fuel enough. -/
def expand (g : Ground) : Nat → Bool → Text → Text → Except Malformed (List Text)
  | 0, _, _, _ => .ok []
  | fuel + 1, files, directory, pattern =>
    match firstMeta? pattern with
    | none => .ok (g.named files (beneath directory (unescape pattern)))
    | some first =>
      let splitAt (i? : Option Nat) : Except Malformed (List Text) :=
        match i? with
        | none => g.search files (if directory = [] then Path.here else directory) pattern
        | some i =>
          let behind := pattern.drop (i + 1)
          if i ≤ first then g.search files (beneath directory (pattern.take i)) behind
          else do
            let places ← g.expand fuel false directory (pattern.take i)
            return (← places.mapM (g.search files · behind)).flatten
      match lastOf? (fun c => c == '/' || c == '}') pattern with
      | none => splitAt none
      | some close =>
        if pattern[close]? = some '/' then splitAt (some close)
        else
          match openingBrace? (pattern.take close) with
          | none => splitAt (lastOf? (· == '/') (pattern.take close))
          | some opening => do
            let front := pattern.take opening
            let (places, start) ←
              match lastOf? (fun c => c == '/' || c == '}') front with
              | none => pure ([directory], front)
              | some i =>
                if front[i]? = some '}' then pure ([directory], front)
                else do pure (← g.expand fuel false directory (front.take i), front.drop (i + 1))
            let choices := alternatives ((pattern.take close).drop (opening + 1))
            let found ← places.mapM fun place =>
              choices.mapM fun a =>
                g.expand fuel files place (start ++ a ++ pattern.drop (close + 1))
            return found.flatten.flatten

end Ground

/-- The place of the last slash in front of all characters with a meaning. -/
def lastPlainSlash (k : Nat) (found : Option Nat) : Text → Option Nat
  | [] => found
  | '\\' :: _ :: t => lastPlainSlash (k + 2) found t
  | c :: t =>
    if isMeta c then found else lastPlainSlash (k + 1) (if c = '/' then some k else found) t

/-- The directory that a pattern starts in, and the pattern from there on. -/
def splitBase (pattern : Text) : Text × Text :=
  match lastPlainSlash 0 none pattern with
  | none => (Path.here, pattern)
  | some 0 => ("/", pattern.drop 1)
  | some k => (unescape (pattern.take k), pattern.drop (k + 1))

/-- The paths of the files that a pattern stands for. -/
def files (w : Workspace) (pattern : Text) : Except Malformed (List Text) :=
  let pattern := Path.clean pattern
  let (base, rest) := splitBase pattern
  if rest = [] ∨ rest = Path.here ∨ rest = Path.up then
    if !isValid pattern then .error {}
    else .ok (if (w.stat pattern).toOption.isSome then [pattern] else [])
  else if !isValid rest then .error {}
  else
    match w.locate base with
    | .error _ => .ok []
    | .ok place => do
      let found ← Ground.expand { workspace := w, place } (rest.length + 1) true [] rest
      return found.map fun path => Path.join [base, path]

end Marginalia.Glob
