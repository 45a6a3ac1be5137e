import Marginalia.Diagnosis
import Marginalia.Glob
import Marginalia.Highlight
import Marginalia.Text.Quoted

/-!
# Settings

What can be chosen for a run. A setting that is left at its zero value takes its default; settings are
checked before they are used, and the first that is out of order is reported.
-/
namespace Marginalia

structure Settings where
  /-- The deepest heading level of the table of contents. -/
  level : Int := 0
  /-- The file that a page is written to. -/
  output : Text := []
  title : Text := []
  style : Text := []
  /-- Patterns of files that patterns leave out. -/
  exclude : List Text := []
  /-- The number of files that may be read at once. -/
  parallel : Int := 0
  /-- Lexers of further file extensions. -/
  languages : List (Text × Text) := []
  /-- The directory of the file that the settings come from, empty if there is none. -/
  directory : Text := []
deriving DecidableEq, Repr

inductive SettingError where
  | absent
  | level (n : Int)
  | style (name : Text)
  | pattern (p : Text)
  | parallel (n : Int)
  | extension (name : Text)
  | lexer (name : Text)
deriving DecidableEq, Repr

instance : Diagnosable SettingError where
  diagnose
    | .absent =>
      { code := "CONFIG_INVALID", message := "validating config: validator: (nil *config.Config)" }
    | .level n =>
      { code := "CONFIG_INVALID"
        message := "invalid heading level " ++ Text.ofInt n
        hint := "Set level between 1 and 6"
        facts := [("field", .text "level"), ("value", .number n)] }
    | .style name =>
      { code := "CONFIG_INVALID"
        message := "unknown highlight style " ++ Quoted.quote name
        hint := "Use a chroma style name such as github, monokai or dracula"
        facts := [("field", .text "style"), ("value", .text name)] }
    | .pattern p =>
      { code := "CONFIG_INVALID"
        message := "invalid exclude pattern " ++ Quoted.quote p
        hint := "Exclude patterns use doublestar syntax, e.g. \"test/**\""
        facts := [("field", .text "exclude"), ("value", .text p)] }
    | .parallel n =>
      { code := "CONFIG_INVALID"
        message := "invalid value " ++ Text.ofInt n ++ " for \"parallel\""
        hint := "Set parallel between 1 and 64"
        facts := [("field", .text "parallel"), ("value", .number n)] }
    | .extension name =>
      { code := "CONFIG_INVALID"
        message := "validation failed for field " ++ Quoted.quote ("languages[" ++ name ++ "]")
        facts := [("field", .text ("languages[" ++ name ++ "]")), ("tag", .text "required")] }
    | .lexer name =>
      { code := "CONFIG_INVALID"
        message := "unknown lexer " ++ Quoted.quote name ++ " in languages"
        hint := "Map extensions to chroma lexer names, e.g. ts = \"typescript\""
        facts := [("field", .text "languages"), ("value", .text name)] }

namespace Settings

/-- The value, or the default if it is zero. -/
def orDefault {α : Type} [DecidableEq α] (zero value default : α) : α :=
  if value = zero then default else value

def withDefaults (s : Settings) : Settings :=
  { s with
    level := orDefault 0 s.level 2
    output := orDefault [] s.output "out.html"
    title := orDefault [] s.title "Documentation"
    style := orDefault [] s.style Highlight.defaultStyle
    parallel := orDefault 0 s.parallel 4 }

/-- Fails unless a condition holds. -/
def require (condition : Bool) (e : SettingError) : Except SettingError Unit :=
  if condition then .ok () else .error e

/-- Checks the lexer of a file extension, given for which names there is one. -/
def checkLanguage (knows : Text → Bool) (entry : Text × Text) : Except SettingError Unit := do
  require (!entry.1.isEmpty) (.extension entry.1)
  require (knows entry.2) (.lexer entry.2)

def check (knows : Text → Bool) (s : Settings) : Except SettingError Unit := do
  require (1 ≤ s.level && s.level ≤ 6) (.level s.level)
  require (Highlight.styleExists s.style) (.style s.style)
  s.exclude.forM fun p => require (Glob.isValid p) (.pattern p)
  require (1 ≤ s.parallel && s.parallel ≤ 64) (.parallel s.parallel)
  s.languages.forM (checkLanguage knows)

/-- The settings that are there and in order. -/
def checked (knows : Text → Bool) : Option Settings → Except SettingError Settings
  | none => .error .absent
  | some s => (s.check knows).map fun _ => s

end Settings

end Marginalia
