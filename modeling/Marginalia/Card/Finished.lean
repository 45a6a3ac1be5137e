import Marginalia.Card.Basic
import Marginalia.Text.Space

/-!
# Finished cards

A card is finished by rendering its comments and coloring its code. Rendering and coloring are given
as a press, two operations in any monad, so that they may fail and keep state of their own. For each
card the block comments are rendered first, then the line comments, and then, unless the code is
blank, the code is colored.
-/
namespace Marginalia

/-- The two operations that finish a card. -/
structure Press (m : Type → Type) where
  render : Text → m Text
  highlight : Text → m Text

/-- A card as it goes onto a page. -/
structure FinishedCard where
  startLine : Int := 0
  code : Text := []
  gutter : Text := []
  codeHtml : Text := []
  blockComment : Text := []
  lineComment : Text := []
  blockCommentHtml : Text := []
  lineCommentHtml : Text := []
deriving DecidableEq, Repr

def FinishedCard.hasCode (c : FinishedCard) : Bool := !c.code.isEmpty

namespace Card

/-- Comments of one kind are separated by an empty line. -/
def joinComments (comments : List Text) : Text := Text.join "\n\n" comments

/-- The code of a card without its last line end. -/
def joinCode (code : List Text) : Text :=
  match Text.dropEnding? "\r\n" code.flatten with
  | some t => t
  | none => Text.dropEnding "\n" code.flatten

/-- The number of the line that stands `k` lines below another one. Line numbers are signed words of
64 bits: the greatest is followed by the least. -/
def lineBelow (start : Int) (k : Nat) : Int := Int.bmod (start + k) 0x10000000000000000

/-- The numbers of the lines of a code panel, one to a line. -/
def gutter (start : Int) (code : Text) : Text :=
  Text.join "\n" ((List.range (Text.newlines code + 1)).map fun k => Text.ofInt (lineBelow start k))

variable {m : Type → Type} [Monad m]

def finish (press : Press m) (c : Card) : m FinishedCard := do
  let blockComment := joinComments c.blockComments
  let lineComment := joinComments c.lineComments
  let blockCommentHtml ← press.render blockComment
  let lineCommentHtml ← press.render lineComment
  let code := joinCode c.code
  if code.isBlank then
    return { startLine := c.startLine, blockComment, lineComment, blockCommentHtml, lineCommentHtml }
  else
    let codeHtml ← press.highlight code
    return { startLine := c.startLine, code, gutter := gutter c.startLine code, codeHtml,
             blockComment, lineComment, blockCommentHtml, lineCommentHtml }

def finishAll (press : Press m) (cards : List Card) : m (List FinishedCard) :=
  cards.mapM (finish press)

end Card

end Marginalia
