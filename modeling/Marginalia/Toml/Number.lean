import Marginalia.Numeral
import Marginalia.Toml.Value

/-!
# Numbers, dates and times

An integer is written in one of four bases and has to fit into 64 bits. A float has a point, an
exponent or both. Underscores may stand between digits. A date or time is checked against the
calendar.
-/
namespace Marginalia.Toml

open Numeral

def decimal? (t : Text) : Option Int := do
  let (negative, body) := signed t
  let digits ← withoutUnderscores? body
  if digits.length > 1 ∧ digits.head? = some '0' then none
  let n ← natural? 10 digits
  bounded? (if negative then -(n : Int) else n)

/-- An integer in another base, from behind its mark on. -/
def inBase? (base : Nat) (t : Text) : Option Int := do
  bounded? (← natural? base (← withoutUnderscores? t))

/-- The digits behind the point of a float, none if it has no point. -/
def fraction? (front : Text) : Option Text :=
  match front.dropWhile (· ≠ '.') with
  | [] => some []
  | _ :: digits => withoutUnderscores? digits

/-- The exponent of a float from its mark on, zero if it has none. -/
def exponent? : Text → Option Int
  | [] => some 0
  | _ :: t => do
    let (negative, body) := signed t
    let n ← natural? 10 (← withoutUnderscores? body)
    return if negative then -(n : Int) else (n : Int)

/-- A finite float without its sign. -/
def finite? (negative : Bool) (t : Text) : Option Binary64 := do
  let isMark (c : Char) : Bool := c == 'e' || c == 'E'
  let front := t.takeWhile (!isMark ·)
  let whole ← withoutUnderscores? (front.takeWhile (· ≠ '.'))
  if whole.length > 1 ∧ whole.head? = some '0' then none
  let fraction ← fraction? front
  let exponent ← exponent? (t.dropWhile (!isMark ·))
  let digits ← natural? 10 (whole ++ fraction)
  Binary64.ofDecimal? negative digits (exponent - (fraction.length : Int))

def float? (t : Text) : Option Binary64 :=
  let (negative, body) := signed t
  if body = "inf" then some (.infinite negative)
  else if body = "nan" then some .notANumber
  else finite? negative body

/-- The value of exactly that many decimal digits at the front. -/
def digits? (count : Nat) : Reader Nat := fun t => do
  if t.length < count then none
  return (← natural? 10 (t.take count), t.drop count)

/-- The text behind a character. -/
def expect? (c : Char) : Text → Option Text
  | d :: t => if c = d then some t else none
  | [] => none

def daysIn (year month : Nat) : Nat :=
  let leap := year % 4 = 0 ∧ (year % 100 ≠ 0 ∨ year % 400 = 0)
  match month with
  | 2 => if leap then 29 else 28
  | 4 | 6 | 9 | 11 => 30
  | _ => 31

/-- The text behind a date of the calendar. -/
def date? (t : Text) : Option Text := do
  let (year, t) ← digits? 4 t
  let (month, t) ← digits? 2 (← expect? '-' t)
  let (day, t) ← digits? 2 (← expect? '-' t)
  if 1 ≤ month ∧ month ≤ 12 ∧ 1 ≤ day ∧ day ≤ daysIn year month then some t else none

/-- The text behind a time of the day. The last second of a day may be a leap second. -/
def time? (t : Text) : Option Text := do
  let (hour, t) ← digits? 2 t
  let (minute, t) ← digits? 2 (← expect? ':' t)
  let (second, t) ← digits? 2 (← expect? ':' t)
  if 23 < hour ∨ 59 < minute ∨ 60 < second then none
  match t with
  | '.' :: t => if (t.takeWhile Char.isDigit).isEmpty then none else some (t.dropWhile Char.isDigit)
  | t => some t

/-- Whether a text is the distance of a time zone. -/
def isOffset (t : Text) : Bool :=
  match t with
  | ['Z'] | ['z'] => true
  | c :: t =>
    (c == '+' || c == '-') && (do
      let (hour, t) ← digits? 2 t
      let (minute, t) ← digits? 2 (← expect? ':' t)
      return t.isEmpty && hour ≤ 23 && minute ≤ 59 : Option Bool).getD false
  | [] => false

/-- A date, a time or both. -/
def moment? (t : Text) : Option Value :=
  match date? t with
  | some [] => some (.calendar t)
  | some (c :: rest) =>
    if c = 'T' ∨ c = 't' ∨ c = ' ' then
      match time? rest with
      | some [] => some (.calendar t)
      | some offset => if isOffset offset then some (.instant t) else none
      | none => none
    else none
  | none =>
    match time? t with
    | some [] => some (.calendar t)
    | _ => none

/-- The characters of a date or a time. One blank may stand between the two. -/
def momentSpan (blankSeen : Bool) : Text → Text × Text
  | ' ' :: d :: t =>
    if !blankSeen && d.isDigit then
      let (front, rest) := momentSpan true t
      (' ' :: d :: front, rest)
    else ([], ' ' :: d :: t)
  | c :: t =>
    if c.isDigit || ("-+:.TtZz" : Text).contains c then
      let (front, rest) := momentSpan blankSeen t
      (c :: front, rest)
    else ([], c :: t)
  | [] => ([], [])

/-- Whether a date or a time begins here: four digits and a hyphen, or two and a colon. -/
def startsMoment (t : Text) : Bool :=
  let count := (t.takeWhile Char.isDigit).length
  (count == 4 && t[4]? == some '-') || (count == 2 && t[2]? == some ':')

/-- The characters of a number in a base. -/
def baseSpan (base : Nat) (t : Text) : Text × Text :=
  t.span fun c => c == '_' || (digitIn? base c).isSome

/-- An integer with a mark for its base, which is not decimal. -/
def marked? (t : Text) : Option (Option (Value × Text)) :=
  let read (base : Nat) (t : Text) : Option (Value × Text) :=
    let (digits, rest) := baseSpan base t
    (inBase? base digits).map fun n => (.integer n, rest)
  match t with
  | '0' :: 'x' :: t => some (read 16 t)
  | '0' :: 'o' :: t => some (read 8 t)
  | '0' :: 'b' :: t => some (read 2 t)
  | _ => none

/-- A decimal integer or a float. -/
def plainNumber? (t : Text) : Option (Value × Text) :=
  let (front, rest) := t.span fun c => c.isDigit || ("+-_.eE" : Text).contains c
  let ending := rest.take 3
  if ending = "inf" ∨ ending = "nan" then
    (float? (front ++ ending)).map fun x => (.float x, rest.drop 3)
  else if rest.head? = some 'i' ∨ rest.head? = some 'n' then none
  else if front.any fun c => c == '.' || c == 'e' || c == 'E' then
    (float? front).map fun x => (.float x, rest)
  else (decimal? front).map fun n => (.integer n, rest)

/-- A number, a date or a time. -/
def number? : Reader Value := fun t =>
  if startsMoment t then
    let (front, rest) := momentSpan false t
    (moment? front).map fun v => (v, rest)
  else
    match marked? t with
    | some found => found
    | none => plainNumber? t

end Marginalia.Toml
