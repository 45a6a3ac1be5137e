import Marginalia.Text.Basic

/-!
# Numerals

The integers that settings and flags hold. Digits may be grouped by underscores, and a number has to
fit into 64 bits. A free numeral chooses its own base: sixteen, eight or two behind a mark, eight
behind a zero, and ten otherwise.
-/
namespace Marginalia.Numeral

/-- The value of a digit in any base up to sixteen. -/
def digitIn? (base : Nat) (c : Char) : Option Nat :=
  let n? : Option Nat :=
    if '0' ≤ c ∧ c ≤ '9' then some (c.toNat - 48)
    else if 'a' ≤ c ∧ c ≤ 'f' then some (c.toNat - 87)
    else if 'A' ≤ c ∧ c ≤ 'F' then some (c.toNat - 55)
    else none
  n?.bind fun n => if n < base then some n else none

/-- The value of a nonempty run of digits. -/
def natural? (base : Nat) : Text → Option Nat
  | [] => none
  | ds => ds.foldl (fun acc c => do return (← acc) * base + (← digitIn? base c)) (some 0)

/-- Digits without the underscores between them; each underscore stands between two digits. -/
def withoutUnderscores? (digits : Text) : Option Text :=
  let groups := Text.splitAtChar '_' digits
  if groups.any List.isEmpty then none else some groups.flatten

/-- Whether an integer fits into 64 bits. -/
def fits (n : Int) : Bool := -0x8000000000000000 ≤ n && n < 0x8000000000000000

def bounded? (n : Int) : Option Int := if fits n then some n else none

/-- The sign in front of a number and the number behind it. -/
def signed : Text → Bool × Text
  | '-' :: t => (true, t)
  | '+' :: t => (false, t)
  | t => (false, t)

/-- Why a free numeral has no value. -/
inductive NumeralError where
  | malformed
  | outOfRange
deriving DecidableEq, Repr

/-- The base that a mark behind a zero stands for. -/
def markedBase? (mark : Char) : Option Nat :=
  if mark = 'x' ∨ mark = 'X' then some 16
  else if mark = 'o' ∨ mark = 'O' then some 8
  else if mark = 'b' ∨ mark = 'B' then some 2
  else none

/-- The base of an unsigned numeral and its digits, and the same digits for the test of their
underscores: one underscore may stand behind a mark, and a zero that tells the base is a digit. -/
def based : Text → Nat × Text × Text
  | '0' :: mark :: d :: t =>
    match markedBase? mark with
    | some base => (base, d :: t, if d = '_' then t else d :: t)
    | none => (8, mark :: d :: t, '0' :: mark :: d :: t)
  | '0' :: t => (8, t, '0' :: t)
  | t => (10, t, t)

/-- Goes on with a magnitude by one character. A magnitude of more than 64 bits ends the reading. -/
def advance (base n : Nat) (c : Char) : Except NumeralError Nat :=
  if c = '_' then .ok n
  else
    match digitIn? base c with
    | none => .error .malformed
    | some d => if n * base + d < 0x10000000000000000 then .ok (n * base + d) else .error .outOfRange

/-- The value of a free numeral. -/
def read (t : Text) : Except NumeralError Int := do
  let (negative, body) := signed t
  if body.isEmpty then throw .malformed
  let (base, digits, grouped) := based body
  let n ← digits.foldlM (advance base) 0
  if (withoutUnderscores? grouped).isNone then throw .malformed
  let value : Int := if negative then -(n : Int) else n
  if fits value then return value else throw .outOfRange

end Marginalia.Numeral
