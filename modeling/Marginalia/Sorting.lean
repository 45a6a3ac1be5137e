/-!
# Sorting by a comparison

A list is cut into blocks of twenty, each block is sorted by insertion, and neighbouring blocks are
merged until one is left. No part of this asks that the comparison be an order: an element moves in
front of one that stands before it exactly if `less` says so of the two, so a comparison that also
holds of equal elements turns them around.

The merge is symmetric. It looks for the point where the halves of the result part, which needs a
bisection over pairs of places whose sum is fixed, and merges each half by itself.
-/
namespace Marginalia.Sorting

variable {α : Type}

/-- Bisects the numbers from `lo` to `hi`, for the least one with a property. -/
def bisect (p : Nat → Bool) (lo hi : Nat) : Nat :=
  if lo < hi then
    if p ((lo + hi) / 2) then bisect p lo ((lo + hi) / 2) else bisect p ((lo + hi) / 2 + 1) hi
  else lo
termination_by hi - lo

/-- Moves an element to the left through what stands before it, here listed from the right. -/
def moveLeft (less : α → α → Bool) (x : α) : List α → List α
  | [] => [x]
  | y :: ys => if less x y then y :: moveLeft less x ys else x :: y :: ys

def insertion (less : α → α → Bool) (xs : List α) : List α :=
  (xs.foldl (fun sorted x => moveLeft less x sorted) []).reverse

/-- Whether the element `j` of the right list moves in front of the element `i` of the left one. -/
def overtakes (less : α → α → Bool) (xs ys : List α) (i j : Nat) : Bool :=
  match xs[i]?, ys[j]? with
  | some x, some y => less y x
  | _, _ => false

def merge (less : α → α → Bool) (xs ys : List α) : List α :=
  if xs.length = 0 ∨ ys.length = 0 then xs ++ ys
  else if xs.length = 1 then
    let j := bisect (fun j => !overtakes less xs ys 0 j) 0 ys.length
    ys.take j ++ xs ++ ys.drop j
  else if ys.length = 1 then
    let i := bisect (fun i => overtakes less xs ys i 0) 0 xs.length
    xs.take i ++ ys ++ xs.drop i
  else
    let half := (xs.length + ys.length) / 2
    let i := bisect (fun i => overtakes less xs ys i (half - 1 - i))
      (half - ys.length) (min half xs.length)
    let j := half - i
    merge less (xs.take i) (ys.take j) ++ merge less (xs.drop i) (ys.drop j)
termination_by xs.length + ys.length

/-- Merges each block with its right neighbour. -/
def mergePairs (less : α → α → Bool) : List (List α) → List (List α)
  | xs :: ys :: blocks => merge less xs ys :: mergePairs less blocks
  | blocks => blocks

theorem length_mergePairs_le (less : α → α → Bool) (blocks : List (List α)) :
    (mergePairs less blocks).length ≤ blocks.length := by
  fun_induction mergePairs less blocks with
  | case1 xs ys blocks ih =>
      simp only [List.length_cons]
      omega
  | case2 blocks => exact Nat.le_refl _

/-- Merges blocks until one is left. -/
def mergeAll (less : α → α → Bool) : List (List α) → List α
  | [] => []
  | [xs] => xs
  | xs :: ys :: blocks => mergeAll less (merge less xs ys :: mergePairs less blocks)
termination_by blocks => blocks.length
decreasing_by
  have := length_mergePairs_le less blocks
  simp only [List.length_cons]
  omega

/-- Cuts a list into blocks of twenty and a shorter rest. -/
def blocks (xs : List α) : List (List α) :=
  if xs.length ≤ 20 then [xs] else xs.take 20 :: blocks (xs.drop 20)
termination_by xs.length

def sort (less : α → α → Bool) (xs : List α) : List α :=
  mergeAll less ((blocks xs).map (insertion less))

end Marginalia.Sorting
