import Marginalia.Anchor
import Mathlib.Data.List.Nodup
import Mathlib.Data.List.Perm.Subperm

/-!
# Anchors are never issued twice

Different numbers give different variants of a slug, so among one more variant than there are issued
slugs one is free, and what is issued is always new. The issued slugs therefore stay pairwise
distinct along every sequence of calls, however their bases collide. The table of contents has one
line for each file and each heading of the sequence, with the slug which that call returned.
-/
namespace Marginalia

theorem Text.ofNat_injective : Function.Injective Text.ofNat := by
  have hread : Function.LeftInverse (fun digits => Nat.ofDigitChars 10 digits 0) Text.ofNat :=
    fun _ => Nat.ofDigitChars_ten_toDigits
  exact hread.injective

namespace Anchors

theorem variant_injective (base : Text) : Function.Injective (variant base) := by
  intro m n h
  exact Text.ofNat_injective (List.append_cancel_left h)

theorem exists_variant_notMem (issued : List Text) (base : Text) :
    ∃ k ≤ issued.length, variant base k ∉ issued := by
  by_contra hall
  push Not at hall
  have hsub : (List.range (issued.length + 1)).map (variant base) ⊆ issued := by
    intro s hs
    obtain ⟨k, hk, rfl⟩ := List.mem_map.mp hs
    exact hall k (Nat.lt_succ_iff.mp (List.mem_range.mp hk))
  have hnodup : ((List.range (issued.length + 1)).map (variant base)).Nodup :=
    List.nodup_range.map (variant_injective base)
  have hle := (List.subperm_of_subset hnodup hsub).length_le
  simp only [List.length_map, List.length_range] at hle
  omega

/-- What is issued has not been issued before. -/
theorem fresh_notMem (issued : List Text) (base : Text) : fresh issued base ∉ issued := by
  unfold fresh
  split
  · obtain ⟨k, hk, hfree⟩ := exists_variant_notMem issued base
    have hsome : ((List.range (issued.length + 1)).find?
        fun k => !issued.contains (variant base k)).isSome := by
      rw [List.find?_isSome]
      exact ⟨k, List.mem_range.mpr (Nat.lt_succ_iff.mpr hk), by simpa using hfree⟩
    obtain ⟨j, hj⟩ := Option.isSome_iff_exists.mp hsome
    have hfound := List.find?_some hj
    simp only [hj, Option.getD_some]
    simpa using hfound
  · next h => simpa using h

/-- One use of the anchors. -/
inductive Call where
  | reserve (title : Text)
  | file (name : Text)
  | heading (fileSlug title : Text) (level : Int)
deriving DecidableEq, Repr

/-- The line that a call adds to the table of contents once it has got its slug. -/
def Call.entry? (slug : Text) : Call → Option Entry
  | .reserve _ => none
  | .file name => some { title := name, slug, tag := "file" }
  | .heading _ title level => some { title, slug, tag := "h" ++ Text.ofInt level }

/-- The slug that a call returns, and the anchors behind it. -/
def issue (a : Anchors) : Call → Text × Anchors
  | .reserve title => a.reserve title
  | .file name => a.file name
  | .heading fileSlug title level => a.heading fileSlug title level

/-- The slugs that a sequence of calls returns, in order, and the anchors behind the last one. -/
def issueAll (a : Anchors) : List Call → List Text × Anchors
  | [] => ([], a)
  | c :: cs =>
    let (s, b) := a.issue c
    let (later, d) := b.issueAll cs
    (s :: later, d)

theorem issue_fst_notMem (a : Anchors) (c : Call) : (a.issue c).1 ∉ a.issued := by
  cases c <;> exact fresh_notMem _ _

theorem issue_issued (a : Anchors) (c : Call) :
    (a.issue c).2.issued = (a.issue c).1 :: a.issued := by
  cases c <;> rfl

theorem issue_entries (a : Anchors) (c : Call) :
    (a.issue c).2.entries = a.entries ++ (c.entry? (a.issue c).1).toList := by
  cases c with
  | reserve title => exact (List.append_nil _).symm
  | file name => rfl
  | heading fileSlug title level => rfl

theorem issueAll_cons (a : Anchors) (c : Call) (cs : List Call) :
    a.issueAll (c :: cs) =
      ((a.issue c).1 :: ((a.issue c).2.issueAll cs).1, ((a.issue c).2.issueAll cs).2) := rfl

theorem issueAll_length (a : Anchors) (calls : List Call) :
    (a.issueAll calls).1.length = calls.length := by
  induction calls generalizing a with
  | nil => rfl
  | cons c cs ih => rw [issueAll_cons, List.length_cons, ih, List.length_cons]

theorem issueAll_issued (a : Anchors) (calls : List Call) :
    (a.issueAll calls).2.issued = (a.issueAll calls).1.reverse ++ a.issued := by
  induction calls generalizing a with
  | nil => rfl
  | cons c cs ih =>
      rw [issueAll_cons, ih, issue_issued, List.reverse_cons, List.append_assoc,
        List.singleton_append]

theorem issueAll_nodup {a : Anchors} (h : a.issued.Nodup) (calls : List Call) :
    (a.issueAll calls).2.issued.Nodup := by
  induction calls generalizing a with
  | nil => exact h
  | cons c cs ih =>
      rw [issueAll_cons]
      apply ih
      rw [issue_issued]
      exact List.nodup_cons.mpr ⟨issue_fst_notMem a c, h⟩

theorem issueAll_entries (a : Anchors) (calls : List Call) :
    (a.issueAll calls).2.entries = a.entries ++
      (calls.zip (a.issueAll calls).1).filterMap fun (c, s) => c.entry? s := by
  induction calls generalizing a with
  | nil => exact (List.append_nil _).symm
  | cons c cs ih =>
      rw [issueAll_cons, ih, issue_entries, List.zip_cons_cons, List.append_assoc]
      cases c <;> rfl

/-- Along every sequence of calls the returned slugs are pairwise distinct and are what is issued,
and the table of contents lists the files and headings in the order of the calls, each with its own
slug. -/
theorem issueAll_unique (calls : List Call) :
    let (slugs, a) := ({} : Anchors).issueAll calls
    slugs.length = calls.length ∧ slugs.Nodup ∧ a.issued = slugs.reverse ∧
      a.entries = (calls.zip slugs).filterMap fun (c, s) => c.entry? s := by
  have hissued := issueAll_issued {} calls
  have hnodup : ((({} : Anchors).issueAll calls).2.issued).Nodup :=
    issueAll_nodup List.nodup_nil calls
  rw [hissued] at hnodup
  refine ⟨issueAll_length {} calls, ?_, ?_, ?_⟩
  · simpa using hnodup
  · simpa using hissued
  · simpa using issueAll_entries {} calls

example :
    (({} : Anchors).issueAll [.reserve "Overview", .reserve "overview", .reserve "Overview 0"]).1 =
      ["overview", "overview-0", "overview-0-0"] := by
  decide +kernel

end Anchors

end Marginalia
