import Marginalia.Segment.Basic

/-!
# Cards

A card sets comments beside the code they speak about. The segments of a file are gathered greedily:
a card takes comments, then code, then clear marks, and the first segment that does not fit opens
the next card.
-/
namespace Marginalia

/-- Comments and the code behind them. -/
structure Card where
  /-- The line of the first code of the card, zero if it has none. -/
  startLine : Int := 0
  code : List Text := []
  lineComments : List Text := []
  blockComments : List Text := []
  /-- A closed card takes nothing more. -/
  closed : Bool := false
deriving DecidableEq, Repr

namespace Card

/-- Whether any code segment went into the card, be it empty. -/
def hasCode (c : Card) : Bool := !c.code.isEmpty

/-- Adds a code segment. The first one fixes the line of the card. -/
def addCode (c : Card) (s : Segment) : Card :=
  { c with
    startLine := if c.hasCode then c.startLine else s.line
    code := c.code ++ [s.content] }

/-- Comments start with their first line that is not empty. -/
def commentBody (content : Text) : Text := Text.trimStart (fun c => c == '\r' || c == '\n') content

def addLineComment (c : Card) (s : Segment) : Card :=
  { c with lineComments := c.lineComments ++ [commentBody s.content] }

def addBlockComment (c : Card) (s : Segment) : Card :=
  { c with blockComments := c.blockComments ++ [commentBody s.content] }

def close (c : Card) : Card := { c with closed := true }

/-- Gathers segments into the current card and those behind it. -/
def gatherInto (current : Card) : List Segment → List Card
  | [] => [current]
  | s :: rest =>
    match s.kind with
    | .code =>
      if current.closed then current :: gatherInto (Card.addCode {} s) rest
      else gatherInto (current.addCode s) rest
    | .clear => gatherInto current.close rest
    | .lineComment =>
      if current.hasCode || current.closed then
        current.close :: gatherInto (Card.addLineComment {} s) rest
      else gatherInto (current.addLineComment s) rest
    | .blockComment =>
      if current.hasCode || current.closed then
        current.close :: gatherInto (Card.addBlockComment {} s) rest
      else gatherInto (current.addBlockComment s) rest
    | .unknown _ => gatherInto current rest

/-- The cards of a stream of segments. There is always at least one. -/
def gather (segments : List Segment) : List Card := gatherInto {} segments

end Card

end Marginalia
