import Marginalia.Text.Basic

/-!
# Segments

An annotated source file is an ordered stream of segments: code, line comments, block comments and
clear marks. A segment carries what later stages read (`content`), the line on which it starts, and
the exact stretch of the file it was made from (`source`), markers and dropped lines included.
-/
namespace Marginalia

/-- What a segment holds. A number outside the four known kinds may occur in a stream that was not
made by scanning; it is carried along and skipped by the stages that do not know it. -/
inductive Kind where
  | code
  | lineComment
  | blockComment
  | clear
  | unknown (number : Int)
deriving DecidableEq, Repr

namespace Kind

def ofInt (n : Int) : Kind :=
  if n = 0 then .code
  else if n = 1 then .lineComment
  else if n = 2 then .blockComment
  else if n = 3 then .clear
  else .unknown n

def name : Kind → Text
  | .code => "code"
  | .lineComment => "lineComment"
  | .blockComment => "blockComment"
  | .clear => "clear"
  | .unknown n => "Kind(" ++ Text.ofInt n ++ ")"

end Kind

/-- A classified span of one file. -/
structure Segment where
  kind : Kind
  content : Text
  line : Int
  source : Text := []
deriving DecidableEq, Repr

namespace Segment

/-- The text from which a stream of segments was made. -/
def reassemble (segments : List Segment) : Text := segments.flatMap (·.source)

end Segment

end Marginalia
