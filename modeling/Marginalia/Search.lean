import Marginalia.Anchor
import Marginalia.Sorting

/-!
# Searching the table of contents

A title matches a query if the characters of the query stand in it in order, whatever their case.
Titles are ranked by a score: a character counts more at the start, behind a separator, at a change
from lower to upper case and next to the character found before it, and each character of the title
that is not asked for costs one point per byte. The comparison of two matches holds of equal scores
as well, which is what decides the order of such matches.
-/
namespace Marginalia.Search

/-- How far a query has been found in a title. -/
structure Progress where
  /-- The part of the query that is still to be found. -/
  rest : Text
  /-- The places of the characters found, the latest first. -/
  found : List Nat := []
  /-- The best place so far for the next character of the query. -/
  place? : Option Nat := none
  /-- The gain of that place. -/
  best : Int := -1
  /-- The sum of the gains of neighbouring places. -/
  streak : Int := 0
  score : Int := 0
deriving Repr

/-- A character of a title and its place, counted in bytes. -/
structure Spot where
  place : Nat
  char : Char
deriving DecidableEq, Repr

/-- The characters behind which a word begins. -/
def isSeparator (c : Char) : Bool := ("/-_ .\\" : Text).contains c

/-- The gain of a character that stands next to the one found last. -/
def streakGain (p : Progress) (before? : Option Spot) : Int :=
  match p.found, before? with
  | last :: _, some b => if last = b.place then p.streak * 2 + 5 else 0
  | _, _ => 0

/-- The gain of finding a character here, but for its neighbours. -/
def placeGain (before? : Option Spot) (s : Spot) : Int :=
  match before? with
  | none => 10
  | some b =>
    (if isLowerLetter b.char && isUpperLetter s.char then 20 else 0)
      + (if isSeparator b.char then 20 else 0)

/-- Takes a spot into account if it has the next character of the query. -/
def Progress.consider (p : Progress) (before? : Option Spot) (s : Spot) : Progress :=
  match p.rest with
  | [] => p
  | q :: _ =>
    if sameLetter s.char q then
      let streak := streakGain p before?
      let gain := placeGain before? s + streak
      let p := { p with streak := p.streak + streak }
      if gain > p.best then { p with best := gain, place? := some s.place } else p
    else p

/-- The cost of the characters in front of the first one found. -/
def leadingCost (place : Nat) : Int := max (-5 * (place : Int)) (-15)

/-- Settles on the best place. -/
def Progress.settle (p : Progress) : Progress :=
  match p.place? with
  | none => p
  | some place =>
    let best := if p.found.isEmpty then p.best + leadingCost place else p.best
    { p with rest := p.rest.tail, found := place :: p.found, best := -1, score := p.score + best }

/-- The best place is settled on when the character behind it is the query's next one, or when the
title ends. A title ends with a null character. -/
def Progress.advance (p : Progress) (before? : Option Spot) (s : Spot) (next : Char) : Progress :=
  let p := p.consider before? s
  let wanted := p.rest.tail.headD '\x00'
  if next = '\x00' || sameLetter wanted next then p.settle else p

/-- Walks through a title from a place on. -/
def walk (p : Progress) (before? : Option Spot) (place : Nat) : Text → Progress
  | [] => p
  | c :: cs =>
    let s : Spot := ⟨place, c⟩
    walk (p.advance before? s (cs.headD '\x00')) (some s) (place + c.utf8Size) cs

def score? (query title : Text) : Option Int :=
  let p := walk { rest := query } none 0 title
  if p.found.length = query.length then
    some (p.score + (p.found.length : Int) - (title.byteLength : Int))
  else none

/-- The entries whose titles match, each with its score. -/
def matching (entries : List Entry) (query : Text) : List (Int × Entry) :=
  entries.filterMap fun e => (score? query e.title).map fun s => (s, e)

/-- Whether a match moves in front of one that stands before it. -/
def ranksBefore (a b : Int × Entry) : Bool := a.1 ≥ b.1

/-- The entries that match a query, the best first. A blank query keeps all of them as they are. -/
def filter (entries : List Entry) (query : Text) : List Entry :=
  match Text.trim query with
  | [] => entries
  | q => (Sorting.sort ranksBefore (matching entries q)).map (·.2)

end Marginalia.Search
