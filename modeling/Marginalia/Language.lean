import Marginalia.Diagnosis
import Marginalia.Text.Case
import Marginalia.Text.Quoted
import Marginalia.Text.Space

/-!
# Languages

A file is read in the language that its extension names. Two extensions are known from the start;
others are added, or the known ones replaced, by a mapping from extensions to lexers.
-/
namespace Marginalia

/-- A language and the lexer that colors it. -/
structure Language where
  name : Text
  lexer : Text
deriving DecidableEq, Repr

/-- The lexicographic order of texts by code point, which is also the order of their bytes. -/
def Text.atMost : Text → Text → Bool
  | [], _ => true
  | _ :: _, [] => false
  | a :: as, b :: bs => if a = b then atMost as bs else a.toNat < b.toNat

/-- The part of a path from the last dot of its last component on. -/
def Text.extension (path : Text) : Text :=
  let base := (path.reverse.takeWhile (· ≠ '/')).reverse
  match base.reverse.span (· ≠ '.') with
  | (_, []) => []
  | (behind, _ :: _) => '.' :: behind.reverse

structure Registry where
  byExtension : List (Text × Language)
deriving Repr

/-- A file whose extension no language has. -/
structure UnsupportedError where
  file : Text
  extension : Text
  /-- The extensions that languages have, in order. -/
  supported : List Text
deriving DecidableEq, Repr

instance : Diagnosable UnsupportedError where
  diagnose e :=
    { code := "UNSUPPORTED_LANGUAGE"
      message := "unknown file extension: " ++ Quoted.quote e.extension ++ " (file " ++ e.file ++ ")"
      hint := "Supported extensions: " ++ Text.join ", " e.supported
        ++ "; add more under [languages] in solcco.toml"
      facts := [("file", .text e.file), ("extension", .text e.extension)] }

namespace Registry

/-- Extensions are compared without blanks around them, in lower case and with their dot. -/
def normalize (extension : Text) : Text :=
  match Text.lower (Text.trim extension) with
  | [] => []
  | '.' :: rest => '.' :: rest
  | t => '.' :: t

def defaults : Registry :=
  ⟨[(".js", ⟨"javascript", "javascript"⟩), (".sol", ⟨"solidity", "solidity"⟩)]⟩

/-- Gives an extension a language, in place of the one it had. -/
def insert (r : Registry) (extension : Text) (l : Language) : Registry :=
  ⟨(extension, l) :: r.byExtension.filter (·.1 ≠ extension)⟩

/-- The default languages with further extensions added. -/
def ofExtra (extra : List (Text × Text)) : Registry :=
  extra.foldl (fun r (ext, lexer) => r.insert (normalize ext) ⟨Text.lower lexer, lexer⟩) defaults

/-- The extensions that have a language, in order. -/
def extensions (r : Registry) : List Text := (r.byExtension.map (·.1)).mergeSort Text.atMost

def forFile (r : Registry) (file : Text) : Except UnsupportedError Language :=
  let ext := normalize (Text.extension file)
  match r.byExtension.lookup ext with
  | some l => .ok l
  | none => .error { file, extension := ext, supported := r.extensions }

end Registry

end Marginalia
