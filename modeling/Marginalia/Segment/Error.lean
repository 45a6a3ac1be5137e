import Marginalia.Diagnosis

/-!
# Why a file cannot be segmented

Scanning fails for two reasons only: a line directive that is not known, and a block comment that is
never closed. The error names the file, the line and the rest of that line.
-/
namespace Marginalia

/-- The reason why scanning stopped. -/
inductive Fault where
  | unknownDirective (flag : Text)
  | unterminatedBlock
deriving DecidableEq, Repr

namespace Fault

def code : Fault → Text
  | .unknownDirective _ => "UNKNOWN_DIRECTIVE"
  | .unterminatedBlock => "UNTERMINATED_BLOCK_COMMENT"

def message : Fault → Text
  | .unknownDirective flag => "unknown solcco line comment flag: " ++ flag
  | .unterminatedBlock => "non terminated block comment"

def hint : Fault → Text
  | .unknownDirective _ => "Supported line flags are //+ignore+ and //+clear+"
  | .unterminatedBlock => "Close the block comment with */"

end Fault

/-- A fault with the place where it was found. -/
structure ParseError where
  fault : Fault
  file : Text
  line : Nat
  excerpt : Text
deriving DecidableEq, Repr

/-- The full text of a parse error, which ends with the offending line. -/
def ParseError.message (e : ParseError) : Text :=
  "parse error, file: " ++ e.file ++ ", line " ++ Text.ofNat e.line ++ ": " ++ e.fault.message
    ++ "\n" ++ e.excerpt

instance : Diagnosable ParseError where
  diagnose e :=
    { code := e.fault.code
      message := e.message
      hint := e.fault.hint
      facts := [("file", .text e.file), ("line", .number e.line)] }

end Marginalia
