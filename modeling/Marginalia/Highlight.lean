import Marginalia.Diagnosis

/-!
# Highlighting

Code is colored by the lexer of its language in one of the known styles. The plain lexer, which also
serves for names that are not known, colors nothing: it writes the code with its line ends unified
and with the characters of markup escaped. Lexers that color are not part of this library: whoever
has them is given as a colorist, who also tells for which names there is one.
-/
namespace Marginalia

/-- Colors the code of one language in one style. A pen may fail. -/
abbrev Pen (ε : Type) := Text → Except ε Text

/-- Whoever colors code: the lexers that are known by name, the pens, and the style sheet that goes
with a style. -/
structure Colorist (ε : Type) where
  knows : (lexer : Text) → Bool
  pen : (lexer style : Text) → Pen ε
  sheet : (style : Text) → Except ε Text

namespace Highlight

def defaultStyle : Text := "github"

/-- The style in place of one that is not known. -/
def fallbackStyle : Text := "swapoff"

def styles : List Text :=
  (["RPGLE", "abap", "algol", "algol_nu", "arduino", "ashen", "aura-theme-dark",
    "aura-theme-dark-soft", "autumn", "average", "base16-snazzy", "borland", "bw",
    "catppuccin-frappe", "catppuccin-latte", "catppuccin-macchiato", "catppuccin-mocha", "colorful",
    "doom-one", "doom-one2", "dracula", "emacs", "evergarden", "friendly", "fruity", "github",
    "github-dark", "gruvbox", "gruvbox-light", "hr_high_contrast", "hrdark", "igor", "lovelace",
    "manni", "modus-operandi", "modus-vivendi", "monokai", "monokailight", "murphy", "native",
    "nord", "nordic", "onedark", "onesenterprise", "paraiso-dark", "paraiso-light", "pastie",
    "perldoc", "pygments", "rainbow_dash", "rose-pine", "rose-pine-dawn", "rose-pine-moon", "rrt",
    "solarized-dark", "solarized-dark256", "solarized-light", "swapoff", "tango", "tokyonight-day",
    "tokyonight-moon", "tokyonight-night", "tokyonight-storm", "trac", "vim", "vs", "vulcan",
    "witchhazel", "xcode", "xcode-dark"] : List String).map String.toList

def plainLexers : List Text := ["plaintext", "text", "plain", "no-highlight"]

/-- A lexer is known by its name in any ASCII case. -/
def named (names : List Text) (name : Text) : Bool := names.contains (name.map Char.toLower)

def styleExists (name : Text) : Bool := styles.contains name

/-- The style sheet of a style, which is kept outside the page source. -/
def styleSheet (style : Text) : Text :=
  "/*CSS:" ++ (if styleExists style then style else fallbackStyle) ++ "*/"

def escapeChar (c : Char) : Text :=
  if c = '&' then "&amp;"
  else if c = '<' then "&lt;"
  else if c = '>' then "&gt;"
  else if c = '"' then "&#34;"
  else if c = '\'' then "&#39;"
  else [c]

/-- Code without color. -/
def plain : Text → Text
  | [] => []
  | '\r' :: '\n' :: cs => '\n' :: plain cs
  | '\r' :: cs => '\n' :: plain cs
  | c :: cs => escapeChar c ++ plain cs

/-- What a colorist is doing. -/
inductive Work where
  | tokenising
  | formatting
  | styling
deriving DecidableEq, Repr

namespace Work

def name : Work → Text
  | .tokenising => "tokenising code"
  | .formatting => "formatting highlighted code"
  | .styling => "writing highlight stylesheet"

def subject : Work → Text
  | .tokenising | .formatting => "lexer"
  | .styling => "style"

end Work

end Highlight

structure ColoringError where
  work : Highlight.Work
  /-- The name of the lexer or the style. -/
  subject : Text
  cause : Text
deriving DecidableEq, Repr

instance : Diagnosable ColoringError where
  diagnose e :=
    { code := "RENDER_FAILED"
      message := e.work.name ++ ": " ++ e.cause
      facts := [(e.work.subject, .text e.subject)] }

/-- The colorist who has no colors and knows the plain lexer alone. -/
def Colorist.plain {ε : Type} : Colorist ε where
  knows := Highlight.named Highlight.plainLexers
  pen _ _ code := .ok (Highlight.plain code)
  sheet style := .ok (Highlight.styleSheet style)

end Marginalia
