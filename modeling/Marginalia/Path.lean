import Marginalia.Text.Basic

/-!
# Paths

A path is a text whose components stand between slashes. The functions of this module look at the
text alone and never at files: cleaning removes empty components and dots, and lets a double dot
cancel the component in front of it.
-/
namespace Marginalia.Path

/-- The component that stays where it is. -/
def here : Text := "."

/-- The component that goes one level up. -/
def up : Text := ".."

def isAbsolute (path : Text) : Bool := path.head? == some '/'

/-- The nonempty components of a path. -/
def names (path : Text) : List Text := (Text.splitAtChar '/' path).filter (· ≠ [])

/-- Adds a component to the clean components in front of it, which are listed from the last one
back. -/
def push (rooted : Bool) (clean : List Text) (name : Text) : List Text :=
  if name = [] ∨ name = here then clean
  else if name = up then
    match clean with
    | [] => if rooted then [] else [up]
    | last :: rest => if last = up then up :: last :: rest else rest
  else name :: clean

def ofNames (rooted : Bool) (names : List Text) : Text :=
  if rooted then '/' :: Text.join "/" names
  else if names.isEmpty then here
  else Text.join "/" names

/-- The shortest path that names the same place by its text. -/
def clean (path : Text) : Text :=
  let rooted := isAbsolute path
  ofNames rooted ((Text.splitAtChar '/' path).foldl (push rooted) []).reverse

/-- The clean path of the directory in which the last component stands. -/
def directory (path : Text) : Text := clean (path.reverse.dropWhile (· ≠ '/')).reverse

def base (path : Text) : Text :=
  if path.isEmpty then here
  else
    match Text.trimEnd (· == '/') path with
    | [] => "/"
    | p => (p.reverse.takeWhile (· ≠ '/')).reverse

/-- The clean path through all parts that are not empty. -/
def join (parts : List Text) : Text :=
  match parts.filter (· ≠ []) with
  | [] => []
  | ps => clean (Text.join "/" ps)

/-- The paths of a clean path's ancestors from the outermost on, and the path itself. -/
def ancestry (path : Text) : List Text :=
  let ns := names path
  (List.range ns.length).map fun k => ofNames (isAbsolute path) (ns.take (k + 1))

end Marginalia.Path
