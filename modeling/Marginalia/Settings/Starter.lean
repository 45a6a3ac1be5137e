import Marginalia.Text.Basic

/-!
# The starter configuration

The configuration file that a new project begins with. It spells out the defaults and says what each
setting is for.
-/
namespace Marginalia.Settings

/-- The lines of the starter configuration. -/
def starterLines : List String := [
  "# solcco configuration",
  "",
  "# Deepest heading level that gets an anchor and a table of contents entry.",
  "level = 2",
  "",
  "# HTML output file, relative to this config.",
  "output = \"out.html\"",
  "",
  "title = \"Documentation\"",
  "",
  "# chroma style used for code highlighting.",
  "style = \"github\"",
  "",
  "# Files matching these patterns are skipped when expanding globs.",
  "exclude = [\"node_modules/**\", \"lib/**\"]",
  "",
  "# Number of files read at once.",
  "parallel = 4",
  "",
  "# Extra languages by file extension, mapped to chroma lexer names.",
  "[languages]",
  "# ts = \"typescript\""]

def starter : Text := starterLines.flatMap fun l => l.toList ++ ['\n']

end Marginalia.Settings
