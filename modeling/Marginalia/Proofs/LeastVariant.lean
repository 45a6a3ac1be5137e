import Marginalia.Proofs.Anchors

/-!
# The search for a free slug

A slug is looked for without a bound: the base is tried, and then one variant after the other for as
long as the slug in hand is taken. Behind `n` rounds the `n`-th candidate is in hand and all those in
front of it are taken. Candidates are pairwise different, so there are no more rounds than issued
slugs, and where the search ends is the least candidate that is free.
-/
namespace Marginalia.Anchors

/-- A state of the search: the number of the next variant and the slug in hand. -/
structure Trial where
  next : Nat
  key : Text
deriving DecidableEq, Repr

/-- One round of the search. A taken slug gives way to the next variant, and a free one ends it. -/
def Trial.round? (issued : List Text) (base : Text) (t : Trial) : Option Trial :=
  if t.key ∈ issued then some { next := t.next + 1, key := base ++ "-" ++ Text.ofNat t.next }
  else none

/-- The search gets from one state to another in a number of rounds. -/
inductive Rounds (issued : List Text) (base : Text) : Nat → Trial → Trial → Prop
  | done (t : Trial) : Rounds issued base 0 t t
  | round {n : Nat} {t u v : Trial} : t.round? issued base = some u → Rounds issued base n u v →
      Rounds issued base (n + 1) t v

/-- The slugs to try, in order. -/
def candidate (base : Text) : Nat → Text
  | 0 => base
  | k + 1 => variant base k

/-- The state of the search behind a number of rounds. -/
def trial (base : Text) (n : Nat) : Trial := { next := n, key := candidate base n }

theorem variant_ne_self (base : Text) (k : Nat) : variant base k ≠ base := by
  intro h
  have hlength := congrArg List.length h
  unfold variant at hlength
  rw [List.length_append, List.length_append] at hlength
  have hhyphen : ("-" : Text).length = 1 := rfl
  omega

theorem candidate_injective (base : Text) : Function.Injective (candidate base) := by
  intro m n h
  cases m with
  | zero =>
      cases n with
      | zero => rfl
      | succ n => exact absurd h.symm (variant_ne_self base n)
  | succ m =>
      cases n with
      | zero => exact absurd h (variant_ne_self base m)
      | succ n => exact congrArg Nat.succ (variant_injective base h)

section Search
variable {issued : List Text} {base : Text} {n : Nat}

theorem round?_trial_of_mem (h : candidate base n ∈ issued) :
    (trial base n).round? issued base = some (trial base (n + 1)) := if_pos h

theorem round?_trial_of_notMem (h : candidate base n ∉ issued) :
    (trial base n).round? issued base = none := if_neg h

theorem Rounds.concat {t u v : Trial} (h : Rounds issued base n t u)
    (hlast : u.round? issued base = some v) : Rounds issued base (n + 1) t v := by
  induction h with
  | done t => exact .round hlast (.done v)
  | round hfirst _ ih => exact .round hfirst (ih hlast)

/-- The search passes every candidate that has only taken ones in front of it. -/
theorem rounds_trial (h : ∀ j < n, candidate base j ∈ issued) :
    Rounds issued base n (trial base 0) (trial base n) := by
  induction n with
  | zero => exact .done _
  | succ n ih =>
      have hfront := ih fun j hj => h j (Nat.lt_succ_of_lt hj)
      exact hfront.concat (round?_trial_of_mem (h n (Nat.lt_succ_self n)))

/-- A search that has gone on for some rounds has found that many candidates taken. -/
theorem Rounds.taken {k : Nat} {last : Trial} (h : Rounds issued base n (trial base k) last) :
    ∀ j < n, candidate base (k + j) ∈ issued := by
  generalize hstart : trial base k = t at h
  induction h generalizing k with
  | done t =>
      intro j hj
      exact absurd hj (Nat.not_lt_zero j)
  | @round n t u v hround _ ih =>
      subst hstart
      by_cases hk : candidate base k ∈ issued
      · rw [round?_trial_of_mem hk, Option.some.injEq] at hround
        intro j hj
        cases j with
        | zero => exact hk
        | succ j =>
            have hlater := ih hround j (Nat.lt_of_succ_lt_succ hj)
            rwa [Nat.add_right_comm] at hlater
      · rw [round?_trial_of_notMem hk] at hround
        cases hround

/-- There are no more rounds than issued slugs, since each round finds another one of them. -/
theorem Rounds.le_length {last : Trial} (h : Rounds issued base n (trial base 0) last) :
    n ≤ issued.length := by
  have hsub : (List.range n).map (candidate base) ⊆ issued := by
    intro s hs
    obtain ⟨j, hj, rfl⟩ := List.mem_map.mp hs
    have htaken := h.taken j (List.mem_range.mp hj)
    rwa [Nat.zero_add] at htaken
  have hnodup : ((List.range n).map (candidate base)).Nodup :=
    List.nodup_range.map (candidate_injective base)
  have hle := (List.subperm_of_subset hnodup hsub).length_le
  rwa [List.length_map, List.length_range] at hle

/-- What is issued is the first candidate that is free. -/
theorem exists_fresh_eq_candidate (issued : List Text) (base : Text) :
    ∃ n, fresh issued base = candidate base n ∧ ∀ j < n, candidate base j ∈ issued := by
  unfold fresh
  split
  · next hbase =>
    obtain ⟨k, hk, hfree⟩ := exists_variant_notMem issued base
    cases hfind : (List.range (issued.length + 1)).find? fun k => !issued.contains (variant base k) with
    | none =>
        have hall := List.find?_eq_none.mp hfind k (List.mem_range.mpr (Nat.lt_succ_of_le hk))
        exact absurd hfree (by simpa using hall)
    | some k =>
        obtain ⟨-, -, hbefore⟩ := List.find?_range_eq_some.mp hfind
        refine ⟨k + 1, rfl, fun j hj => ?_⟩
        cases j with
        | zero =>
            change base ∈ issued
            simpa using hbase
        | succ j =>
            change variant base j ∈ issued
            simpa using hbefore j (Nat.lt_of_succ_lt_succ hj)
  · exact ⟨0, rfl, fun j hj => absurd hj (Nat.not_lt_zero j)⟩

end Search

/-- Issuing a slug ends, with the least variant that is free. The search goes on for no more rounds
than there are issued slugs and ends with the slug that is issued: the base, if it is free, or else
the base with the least number that makes it new. That slug is then issued and nothing else is. -/
theorem register_least (a : Anchors) (base : Text) :
    let (key, b) := a.register base
    let start : Trial := { next := 0, key := base }
    (∀ n last, Rounds a.issued base n start last → n ≤ a.issued.length) ∧
      (∃ n last, Rounds a.issued base n start last ∧ last.round? a.issued base = none ∧
        last.key = key) ∧
      (base ∉ a.issued → key = base) ∧
      (base ∈ a.issued → ∃ k, key = base ++ "-" ++ Text.ofNat k ∧
        ∀ j < k, base ++ "-" ++ Text.ofNat j ∈ a.issued) ∧
      key ∉ a.issued ∧ ∀ s, s ∈ b.issued ↔ s = key ∨ s ∈ a.issued := by
  have hfree := fresh_notMem a.issued base
  obtain ⟨n, hn, htaken⟩ := exists_fresh_eq_candidate a.issued base
  have hend : candidate base n ∉ a.issued := hn ▸ hfree
  refine ⟨fun _ _ h => h.le_length, ⟨n, trial base n, rounds_trial htaken, ?_, hn.symm⟩, ?_, ?_,
    hfree, fun s => List.mem_cons⟩
  · exact round?_trial_of_notMem hend
  · intro hbase
    cases n with
    | zero => exact hn
    | succ n => exact absurd (htaken 0 (Nat.succ_pos n)) hbase
  · intro hbase
    cases n with
    | zero => exact absurd hbase hend
    | succ k => exact ⟨k, hn, fun j hj => htaken (j + 1) (Nat.succ_lt_succ hj)⟩

example :
    let issued : List Text := ["overview", "overview-0", "overview-2"]
    (({ issued } : Anchors).register "overview").1 = "overview-1" := by
  decide +kernel

end Marginalia.Anchors
