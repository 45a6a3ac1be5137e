import Marginalia.Text.Basic

/-!
# Numbers of 64 bits

A decimal number is kept as the nearest number of 53 binary digits, a tie going to the even one, and
is written with the fewest decimal digits that are nearest to it again. Everything is computed with
natural numbers, so no rounding happens unseen.
-/
namespace Marginalia

/-- A number of 64 bits. A finite one is its mantissa times two to its exponent. -/
inductive Binary64 where
  | finite (negative : Bool) (mantissa : Nat) (exponent : Int)
  | infinite (negative : Bool)
  | notANumber
deriving DecidableEq, Repr

namespace Binary64

def minExponent : Int := -1074

def maxExponent : Int := 971

/-- The mantissa has at most this many binary digits. -/
def precision : Nat := 53

/-- A natural number divided by another, rounded to the nearest; a tie goes to the even one. -/
def roundDiv (num den : Nat) : Nat :=
  let q := num / den
  let twice := 2 * (num % den)
  if twice > den ∨ (twice = den ∧ q % 2 = 1) then q + 1 else q

/-- A fraction divided by a power of two, as a fraction. -/
def scaled (num den : Nat) (exponent : Int) : Nat × Nat :=
  if 0 ≤ exponent then (num, den * Nat.pow 2 exponent.toNat) else (num * Nat.pow 2 (-exponent).toNat, den)

/-- The exponent with which a positive fraction has a mantissa of full length, if the exponent is in
range. -/
def exponentFor (num den : Nat) : Int :=
  let guess : Int := (num.log2 : Int) - (den.log2 : Int) - (precision - 1 : Nat)
  let (n, d) := scaled num den guess
  max minExponent (if n / d < Nat.pow 2 (precision - 1) then guess - 1 else guess)

/-- The number nearest to a positive fraction, unless it is too large. -/
def nearest? (negative : Bool) (num den : Nat) : Option Binary64 :=
  let e := exponentFor num den
  let (n, d) := scaled num den e
  let m := roundDiv n d
  let (m, e) := if m = Nat.pow 2 precision then (m / 2, e + 1) else (m, e)
  if e > maxExponent then none else some (.finite negative m e)

/-- Decimal exponents beyond this bound lead out of range. -/
def decimalBound : Int := 400

/-- The number nearest to decimal digits times a power of ten, unless it is too large. -/
def ofDecimal? (negative : Bool) (digits : Nat) (exponent : Int) : Option Binary64 :=
  let magnitude := exponent + ((Text.ofNat digits).length : Int)
  if digits = 0 ∨ magnitude < -decimalBound then some (.finite negative 0 minExponent)
  else if magnitude > decimalBound then none
  else if 0 ≤ exponent then nearest? negative (digits * Nat.pow 10 exponent.toNat) 1
  else nearest? negative digits (Nat.pow 10 (-exponent).toNat)

/-- The least and the greatest signed number of 64 bits, to which a number is cut. -/
def integerBound : Nat := Nat.pow 2 63

/-- The integer part of a number; a number without one that fits gives the least integer. -/
def toInt : Binary64 → Int
  | .finite negative m e =>
    let n : Nat := if 0 ≤ e then m * Nat.pow 2 e.toNat else m / Nat.pow 2 (-e).toNat
    if n < integerBound then (if negative then -(n : Int) else n) else -(integerBound : Int)
  | _ => -(integerBound : Int)

/-- The power of ten below a positive fraction. -/
def leadingPlace (num den : Nat) : Int :=
  if den ≤ num then ((Text.ofNat (num / den)).length : Int) - 1
  else
    let l := (Text.ofNat (den / num)).length
    if num * Nat.pow 10 (l - 1) ≥ den then 1 - (l : Int) else -(l : Int)

/-- The decimal numbers nearest to a fraction among the multiples of a power of ten, the nearer one
first. -/
def decimalNeighbours (num den : Nat) (place : Int) : List Nat :=
  let (n, d) :=
    if 0 ≤ place then (num, den * Nat.pow 10 place.toNat) else (num * Nat.pow 10 (-place).toNat, den)
  let q := n / d
  if 2 * (n % d) > d ∨ (2 * (n % d) = d ∧ q % 2 = 1) then [q + 1, q] else [q, q + 1]

/-- Whether a decimal number is nearest to a positive number of 64 bits. -/
def readsBack (m : Nat) (e : Int) (digits : Nat) (place : Int) : Bool :=
  ofDecimal? false digits place == some (.finite false m e)

/-- The digits and the power of ten of the shortest decimal number that reads back. Seventeen digits
always do. -/
def shortest (m : Nat) (e : Int) : Nat × Int :=
  let (num, den) := scaled m 1 (-e)
  let top := leadingPlace num den
  let candidates : List (Nat × Int) := (List.range 17).flatMap fun (k : Nat) =>
    (decimalNeighbours num den (top - (k : Int))).map fun digits => (digits, top - (k : Int))
  (candidates.find? fun (digits, place) => readsBack m e digits place).getD (0, 0)

/-- Digits times a power of ten without an exponent. -/
def positional (digits : Nat) (place : Int) : Text :=
  if 0 ≤ place then Text.ofNat (digits * Nat.pow 10 place.toNat)
  else
    let behind := (-place).toNat
    let ds := Text.ofNat digits
    let ds := List.replicate (behind + 1 - ds.length) '0' ++ ds
    ds.take (ds.length - behind) ++ "." ++ ds.drop (ds.length - behind)

/-- The written form of a number, without an exponent. -/
def toText : Binary64 → Text
  | .finite negative m e =>
    let sign : Text := if negative then "-" else []
    if m = 0 then sign ++ "0"
    else
      let (digits, place) := shortest m e
      sign ++ positional digits place
  | .infinite negative => if negative then "-Inf" else "+Inf"
  | .notANumber => "NaN"

end Binary64

end Marginalia
