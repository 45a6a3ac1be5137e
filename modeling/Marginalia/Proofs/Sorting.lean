import Mathlib.Data.List.Forall2
import Mathlib.Data.List.Count
import Mathlib.Data.List.Induction
import Mathlib.Order.Lattice
import Marginalia.Sorting

/-!
# Sorting with a comparison that holds of equal elements

Let `less a b` say that the key of `a` is at least that of `b`. Sorting by it puts the keys in
non-increasing order, and of elements with one key the later ones come first, for every list
whatever its length.

Each part of the sort is one case of `Merged.append`: two lists are merged piece by piece, where a
cut is right if what stays in front on the left has greater keys than what stays behind on the
right, and what comes forward from the right has keys at least those it overtakes.
-/
namespace Marginalia.Sorting

variable {α κ : Type} [LinearOrder κ] {key : α → κ}

/-- The keys never increase. -/
abbrev Sorted (key : α → κ) (xs : List α) : Prop := xs.Pairwise fun a b => key b ≤ key a

/-- The elements with one key. -/
def tied (key : α → κ) (s : κ) (xs : List α) : List α := xs.filter fun a => key a = s

@[simp] theorem mem_tied {s : κ} {xs : List α} {a : α} :
    a ∈ tied key s xs ↔ a ∈ xs ∧ key a = s := by
  simp [tied]

@[simp] theorem tied_nil (s : κ) : tied key s [] = [] := rfl

@[simp] theorem tied_append (s : κ) (xs ys : List α) :
    tied key s (xs ++ ys) = tied key s xs ++ tied key s ys := by
  simp [tied]

/-- `zs` holds two lists in sorted order, where the right one goes first among equal keys. -/
structure Merged (key : α → κ) (xs ys zs : List α) : Prop where
  sorted : Sorted key zs
  tied_eq (s : κ) : tied key s zs = tied key s ys ++ tied key s xs

theorem Merged.mem_iff {xs ys zs : List α} (h : Merged key xs ys zs) {a : α} :
    a ∈ zs ↔ a ∈ xs ∨ a ∈ ys := by
  have := congrArg (a ∈ ·) (h.tied_eq (key a))
  simpa [or_comm] using this

theorem merged_left {xs : List α} (h : Sorted key xs) : Merged key xs [] xs := ⟨h, by simp⟩

theorem merged_right {ys : List α} (h : Sorted key ys) : Merged key [] ys ys := ⟨h, by simp⟩

/-- Two merges may be put one behind the other. -/
theorem Merged.append {xs₁ xs₂ ys₁ ys₂ zs₁ zs₂ : List α} (h₁ : Merged key xs₁ ys₁ zs₁)
    (h₂ : Merged key xs₂ ys₂ zs₂) (hxs : Sorted key (xs₁ ++ xs₂)) (hys : Sorted key (ys₁ ++ ys₂))
    (stay : ∀ x ∈ xs₁, ∀ y ∈ ys₂, key y < key x) (move : ∀ x ∈ xs₂, ∀ y ∈ ys₁, key x ≤ key y) :
    Merged key (xs₁ ++ xs₂) (ys₁ ++ ys₂) (zs₁ ++ zs₂) where
  sorted := by
    refine List.pairwise_append.2 ⟨h₁.sorted, h₂.sorted, ?_⟩
    intro a ha b hb
    rcases h₁.mem_iff.1 ha with ha | ha <;> rcases h₂.mem_iff.1 hb with hb | hb
    · exact (List.pairwise_append.1 hxs).2.2 a ha b hb
    · exact (stay a ha b hb).le
    · exact move b hb a ha
    · exact (List.pairwise_append.1 hys).2.2 a ha b hb
  tied_eq s := by
    have apart : tied key s xs₁ = [] ∨ tied key s ys₂ = [] := by
      by_contra hne
      obtain ⟨hx, hy⟩ := not_or.1 hne
      obtain ⟨x, hx⟩ := List.exists_mem_of_ne_nil _ hx
      obtain ⟨y, hy⟩ := List.exists_mem_of_ne_nil _ hy
      rw [mem_tied] at hx hy
      exact (stay x hx.1 y hy.1).ne (hy.2.trans hx.2.symm)
    rw [tied_append, tied_append, tied_append, h₁.tied_eq, h₂.tied_eq]
    rcases apart with h | h <;> simp [h]

/-- What is left of the left list comes behind a merge. -/
theorem Merged.append_left {xs₁ xs₂ ys zs : List α} (h : Merged key xs₁ ys zs)
    (hxs : Sorted key (xs₁ ++ xs₂)) (hys : Sorted key ys)
    (move : ∀ x ∈ xs₂, ∀ y ∈ ys, key x ≤ key y) : Merged key (xs₁ ++ xs₂) ys (zs ++ xs₂) := by
  have hrest : Merged key xs₂ [] xs₂ := merged_left (List.pairwise_append.1 hxs).2.1
  rw [← List.append_nil ys] at hys
  simpa using h.append hrest hxs hys (by simp) move

/-- What is left of the right list comes behind a merge. -/
theorem Merged.append_right {xs ys₁ ys₂ zs : List α} (h : Merged key xs ys₁ zs)
    (hxs : Sorted key xs) (hys : Sorted key (ys₁ ++ ys₂))
    (stay : ∀ x ∈ xs, ∀ y ∈ ys₂, key y < key x) : Merged key xs (ys₁ ++ ys₂) (zs ++ ys₂) := by
  have hrest : Merged key [] ys₂ ys₂ := merged_right (List.pairwise_append.1 hys).2.1
  rw [← List.append_nil xs] at hxs
  simpa using h.append hrest hxs hys stay (by simp)

section Cuts

variable {xs : List α}

/-- What stands in front of a cut has keys at least that of the last one there. -/
theorem Sorted.le_of_mem_take (h : Sorted key xs) {i : Nat} (hi : i ≤ xs.length) {a : α}
    (ha : a ∈ xs.take i) : 0 < i ∧ ∃ b, xs[i - 1]? = some b ∧ key b ≤ key a := by
  obtain ⟨k, hk, rfl⟩ := List.mem_take_iff_getElem.1 ha
  have hlast : i - 1 < xs.length := by omega
  refine ⟨by omega, xs[i - 1], by simp [hlast], ?_⟩
  rcases Nat.lt_or_eq_of_le (show k ≤ i - 1 by omega) with hlt | heq
  · exact List.pairwise_iff_getElem.1 h k (i - 1) _ hlast hlt
  · simp only [heq, le_refl]

/-- What stands behind a cut has keys at most that of the first one there. -/
theorem Sorted.le_of_mem_drop (h : Sorted key xs) {i : Nat} {a : α} (ha : a ∈ xs.drop i) :
    ∃ b, xs[i]? = some b ∧ key a ≤ key b := by
  obtain ⟨k, hk, rfl⟩ := List.mem_drop_iff_getElem.1 ha
  have hi : i < xs.length := by omega
  refine ⟨xs[i], by simp [hi], ?_⟩
  rcases Nat.lt_or_eq_of_le (Nat.le_add_right i k) with hlt | heq
  · exact List.pairwise_iff_getElem.1 h i (i + k) hi _ hlt
  · simp only [← heq, le_refl]

end Cuts

/-- Bisection ends where the property changes, if it ends inside. -/
theorem bisect_spec (p : Nat → Bool) {lo hi : Nat} (h : lo ≤ hi) :
    lo ≤ bisect p lo hi ∧ bisect p lo hi ≤ hi ∧
      (lo < bisect p lo hi → p (bisect p lo hi - 1) = false) ∧
      (bisect p lo hi < hi → p (bisect p lo hi) = true) := by
  fun_induction bisect p lo hi with
  | case1 lo hi hlt hp ih =>
      obtain ⟨hlo, hhi, hfalse, htrue⟩ := ih (by omega)
      refine ⟨hlo, by omega, hfalse, fun _ => ?_⟩
      rcases Nat.lt_or_eq_of_le hhi with hin | hend
      · exact htrue hin
      · rwa [hend]
  | case2 lo hi hlt hp ih =>
      obtain ⟨hlo, hhi, hfalse, htrue⟩ := ih (by omega)
      refine ⟨by omega, hhi, fun _ => ?_, htrue⟩
      rcases Nat.lt_or_eq_of_le hlo with hin | hend
      · exact hfalse hin
      · rw [← hend, Nat.add_sub_cancel]
        exact Bool.eq_false_iff.2 hp
  | case3 lo hi hlt =>
      exact ⟨Nat.le_refl _, h, fun hin => absurd hin (Nat.lt_irrefl _), fun hin => absurd hin hlt⟩

/-- `zs` holds a list in sorted order, where of equal keys the later one goes first. -/
structure Ranked (key : α → κ) (xs zs : List α) : Prop where
  sorted : Sorted key zs
  tied_eq (s : κ) : tied key s zs = (tied key s xs).reverse

theorem ranked_nil : Ranked key [] [] := ⟨List.Pairwise.nil, by simp⟩

theorem ranked_singleton (x : α) : Ranked key [x] [x] where
  sorted := List.pairwise_singleton _ _
  tied_eq s := by by_cases h : key x = s <;> simp [tied, h]

theorem Ranked.append {xs₁ xs₂ zs₁ zs₂ zs : List α} (h₁ : Ranked key xs₁ zs₁)
    (h₂ : Ranked key xs₂ zs₂) (h : Merged key zs₁ zs₂ zs) : Ranked key (xs₁ ++ xs₂) zs where
  sorted := h.sorted
  tied_eq s := by simp [h.tied_eq, h₁.tied_eq, h₂.tied_eq]

theorem Ranked.perm {xs zs : List α} (h : Ranked key xs zs) : zs.Perm xs := by
  classical
  refine List.perm_iff_count.2 fun a => ?_
  have := congrArg (List.count a) (h.tied_eq (key a))
  simpa [tied, List.count_filter] using this

theorem blocks_flatten (xs : List α) : (blocks xs).flatten = xs := by
  fun_induction blocks xs with
  | case1 xs h => simp
  | case2 xs h ih => simp [ih]

section Comparison

variable {less : α → α → Bool} (hless : ∀ a b, less a b = true ↔ key b ≤ key a)
include hless

theorem overtakes_iff {xs ys : List α} {i j : Nat} {x y : α} (hx : xs[i]? = some x)
    (hy : ys[j]? = some y) : overtakes less xs ys i j = true ↔ key x ≤ key y := by
  simp [overtakes, hx, hy, hless]

theorem moveLeft_merged {xs : List α} (h : Sorted key xs.reverse) (x : α) :
    Merged key xs.reverse [x] (moveLeft less x xs).reverse := by
  induction xs with
  | nil => exact merged_right (List.pairwise_singleton _ _)
  | cons y ys ih =>
      rw [List.reverse_cons] at h ⊢
      rw [moveLeft]
      split
      case isTrue hxy =>
        rw [List.reverse_cons]
        have hfront : Sorted key ys.reverse := (List.pairwise_append.1 h).1
        exact (ih hfront).append_left h (List.pairwise_singleton _ _) (by simpa [hless] using hxy)
      case isFalse hxy =>
        rw [List.reverse_cons, List.reverse_cons]
        have hlast : key x < key y := by simpa [hless] using hxy
        refine (merged_left h).append_right h (List.pairwise_singleton _ x) ?_
        intro a ha b hb
        rw [List.mem_singleton.1 hb]
        rcases List.mem_append.1 ha with ha | ha
        · exact hlast.trans_le ((List.pairwise_append.1 h).2.2 a ha y (List.mem_singleton_self y))
        · rwa [List.mem_singleton.1 ha]

/-- A cut after which nothing on the right overtakes what stands in front on the left. -/
theorem stay_of_overtakes {xs ys : List α} (hxs : Sorted key xs) (hys : Sorted key ys) {i j : Nat}
    (hi : i ≤ xs.length)
    (h : 0 < i → j < ys.length → overtakes less xs ys (i - 1) j = false) :
    ∀ x ∈ xs.take i, ∀ y ∈ ys.drop j, key y < key x := by
  intro x hx y hy
  obtain ⟨hpos, last, hlast, hxl⟩ := hxs.le_of_mem_take hi hx
  obtain ⟨first, hfirst, hyf⟩ := hys.le_of_mem_drop hy
  have hno := h hpos (List.getElem?_eq_some_iff.1 hfirst).1
  have hlt : key first < key last := by
    rw [← not_le, ← overtakes_iff hless hlast hfirst, hno]
    exact Bool.false_ne_true
  exact (hyf.trans_lt hlt).trans_le hxl

/-- A cut in front of which all on the right overtakes what stands behind it on the left. -/
theorem move_of_overtakes {xs ys : List α} (hxs : Sorted key xs) (hys : Sorted key ys) {i j : Nat}
    (hj : j ≤ ys.length)
    (h : i < xs.length → 0 < j → overtakes less xs ys i (j - 1) = true) :
    ∀ x ∈ xs.drop i, ∀ y ∈ ys.take j, key x ≤ key y := by
  intro x hx y hy
  obtain ⟨first, hfirst, hxf⟩ := hxs.le_of_mem_drop hx
  obtain ⟨hpos, last, hlast, hyl⟩ := hys.le_of_mem_take hj hy
  have hyes := h (List.getElem?_eq_some_iff.1 hfirst).1 hpos
  have hle : key first ≤ key last := (overtakes_iff hless hfirst hlast).1 hyes
  exact (hxf.trans hle).trans hyl

theorem merge_merged {xs ys : List α} (hxs : Sorted key xs) (hys : Sorted key ys) :
    Merged key xs ys (merge less xs ys) := by
  fun_induction merge less xs ys with
  | case1 xs ys h =>
      rcases h with h | h
      · rw [List.length_eq_zero_iff.1 h]
        exact merged_right hys
      · rw [List.length_eq_zero_iff.1 h, List.append_nil]
        exact merged_left hxs
  | case2 xs ys _ hone j =>
      obtain ⟨-, hj, hbefore, hbehind⟩ :=
        bisect_spec (fun j => !overtakes less xs ys 0 j) (Nat.zero_le ys.length)
      have hmove := move_of_overtakes hless hxs hys hj fun _ hpos => by simpa using hbefore hpos
      have hstay := stay_of_overtakes hless hxs hys (i := 1) (by omega) fun _ hlt => by
        simpa using hbehind hlt
      rw [List.take_of_length_le (by omega)] at hstay
      have hfront : Merged key xs (ys.take j) (ys.take j ++ xs) :=
        (merged_right hys.take).append_left hxs hys.take hmove
      rw [← List.take_append_drop j ys] at hys
      simpa using hfront.append_right hxs hys hstay
  | case3 xs ys _ _ hone i =>
      obtain ⟨-, hi, hbefore, hbehind⟩ :=
        bisect_spec (fun i => overtakes less xs ys i 0) (Nat.zero_le xs.length)
      have hstay := stay_of_overtakes hless hxs hys hi fun hpos _ => hbefore hpos
      have hmove := move_of_overtakes hless hxs hys (j := 1) (by omega) fun hlt _ => hbehind hlt
      rw [List.take_of_length_le (by omega)] at hmove
      have hfront : Merged key (xs.take i) ys (xs.take i ++ ys) :=
        (merged_left hxs.take).append_right hxs.take hys hstay
      rw [← List.take_append_drop i xs] at hxs
      simpa using hfront.append_left hxs hys hmove
  | case4 xs ys _ _ _ half i j ih₁ ih₂ =>
      -- Where the bisection ends at a bound, one of the two pieces that are compared is empty.
      obtain ⟨(hlo : half - ys.length ≤ i), (hhi : i ≤ min half xs.length), hbefore, hbehind⟩ :=
        bisect_spec (fun i => overtakes less xs ys i (half - 1 - i))
          (show half - ys.length ≤ min half xs.length by omega)
      have hstay := stay_of_overtakes hless hxs hys (i := i) (j := j) (by omega) fun hpos hlt => by
        have hno : overtakes less xs ys (i - 1) (half - 1 - (i - 1)) = false :=
          hbefore (show half - ys.length < i by omega)
        rwa [show half - 1 - (i - 1) = j by omega] at hno
      have hmove := move_of_overtakes hless hxs hys (i := i) (j := j) (by omega) fun hlt hpos => by
        have hyes : overtakes less xs ys i (half - 1 - i) = true :=
          hbehind (show i < min half xs.length by omega)
        rwa [show half - 1 - i = j - 1 by omega] at hyes
      have hfront := ih₁ hxs.take hys.take
      have hback := ih₂ hxs.drop hys.drop
      rw [← List.take_append_drop i xs] at hxs
      rw [← List.take_append_drop j ys] at hys
      simpa using hfront.append hback hxs hys hstay hmove

theorem insertion_ranked (xs : List α) : Ranked key xs (insertion less xs) := by
  induction xs using List.reverseRecOn with
  | nil => exact ranked_nil
  | append_singleton xs x ih =>
      have hstep := moveLeft_merged hless ih.sorted x
      rw [insertion, List.foldl_append]
      exact ih.append (ranked_singleton x) hstep

/-- A round of merges ranks longer pieces of the same list. -/
theorem mergePairs_ranked {raw sorted : List (List α)} (h : List.Forall₂ (Ranked key) raw sorted) :
    ∃ longer, longer.flatten = raw.flatten ∧
      List.Forall₂ (Ranked key) longer (mergePairs less sorted) := by
  fun_induction mergePairs less sorted generalizing raw with
  | case1 xs ys blocks ih =>
      obtain _ | ⟨hxs, _ | ⟨hys, hblocks⟩⟩ := h
      obtain ⟨longer, hflat, hlonger⟩ := ih hblocks
      have hpair := hxs.append hys (merge_merged hless hxs.sorted hys.sorted)
      exact ⟨_, by simp [hflat], .cons hpair hlonger⟩
  | case2 blocks => exact ⟨raw, rfl, h⟩

theorem mergeAll_ranked {raw sorted : List (List α)} (h : List.Forall₂ (Ranked key) raw sorted) :
    Ranked key raw.flatten (mergeAll less sorted) := by
  fun_induction mergeAll less sorted generalizing raw with
  | case1 =>
      cases h
      exact ranked_nil
  | case2 xs =>
      obtain _ | ⟨hxs, _ | _⟩ := h
      simpa using hxs
  | case3 xs ys blocks ih =>
      obtain ⟨longer, hflat, hlonger⟩ := mergePairs_ranked hless h
      rw [← hflat]
      exact ih hlonger

/-- Sorting ranks every list. -/
theorem sort_ranked (xs : List α) : Ranked key xs (sort less xs) := by
  have hblocks : List.Forall₂ (Ranked key) (blocks xs) ((blocks xs).map (insertion less)) :=
    List.forall₂_map_right_iff.2 (List.forall₂_same.2 fun block _ => insertion_ranked hless block)
  have hall := mergeAll_ranked hless hblocks
  rwa [blocks_flatten] at hall

end Comparison

end Marginalia.Sorting
