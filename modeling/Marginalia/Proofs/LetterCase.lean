import Marginalia.Proofs.Percent
import Marginalia.Text.Case
import Marginalia.Text.Space

/-!
# Letter case and words

The runs of the lower-case table and their images lie in gaps between the code points of white
space, so a character is white space just when its lower-case form is. A text therefore has the same
words before and behind lower-casing, up to their case.
-/
namespace Marginalia

/-- What holds of a character and of its image under each run that has it holds of its image under
the table. -/
theorem Text.Case.image_induction {table : List CaseRun} {c : Char} {P : Char → Prop}
    (hrun : ∀ r ∈ table, r.has c.toNat → P (Char.ofNat (c.toNat + r.shift).toNat)) (hstay : P c) :
    P (image table c) := by
  unfold image
  split
  case h_1 r hr =>
    have hhas : r.has c.toNat := by simpa using List.find?_some hr
    exact hrun r (List.mem_of_find?_eq_some hr) hhas
  case h_2 => exact hstay

section Space

/-- Whether the code points between two bounds lie in one of the gaps that white space leaves. -/
def inGap (first last : Int) : Bool :=
  (0x20 < first && last < 0x85) || (0x85 < first && last < 0xA0) ||
    (0xA0 < first && last < 0x1680) || (0x1680 < first && last < 0x2000) ||
    (0x205F < first && last < 0x3000) || 0x3000 < first

theorem isSpace_of_inGap {first last : Int} (h : inGap first last) {c : Char}
    (hfirst : first ≤ c.toNat) (hlast : c.toNat ≤ last) : isSpace c = false := by
  simp only [inGap, Bool.or_eq_true, Bool.and_eq_true, decide_eq_true_eq] at h
  rw [Bool.eq_false_iff]
  simp only [isSpace, ne_eq, Bool.or_eq_true, Bool.and_eq_true, decide_eq_true_eq, beq_iff_eq]
  omega

/-- A number that is no code point stands for the null character, which is no white space. -/
theorem isSpace_ofNat_of_inGap {first last : Int} (h : inGap first last) {n : Nat}
    (hfirst : first ≤ n) (hlast : n ≤ last) : isSpace (Char.ofNat n) = false := by
  by_cases hvalid : n.isValidChar
  · have hcode : (Char.ofNat n).toNat = n := Utf8.toNat_ofNat hvalid
    exact isSpace_of_inGap h (by rwa [hcode]) (by rwa [hcode])
  · rw [Char.ofNat, dif_neg hvalid]
    rfl

/-- Neither the characters of a run nor their images are white space. -/
def CaseRun.avoidsSpace (r : CaseRun) : Bool :=
  inGap r.first r.last && inGap (r.first + r.shift) (r.last + r.shift)

theorem avoidsSpace_lowerRuns : ∀ r ∈ Text.Case.lowerRuns, r.avoidsSpace = true := by
  decide +kernel

theorem isSpace_shift {r : CaseRun} (hr : r.avoidsSpace) {c : Char} (hc : r.has c.toNat) :
    isSpace (Char.ofNat (c.toNat + r.shift).toNat) = isSpace c := by
  simp only [CaseRun.avoidsSpace, Bool.and_eq_true] at hr
  simp only [CharRun.has, Bool.and_eq_true, decide_eq_true_eq] at hc
  obtain ⟨⟨hfirst, hlast⟩, -⟩ := hc
  have hpos : 0 < r.first + r.shift := by
    have himage := hr.2
    simp only [inGap, Bool.or_eq_true, Bool.and_eq_true, decide_eq_true_eq] at himage
    omega
  rw [isSpace_of_inGap hr.1 (c := c) (by omega) (by omega),
    isSpace_ofNat_of_inGap hr.2 (by omega) (by omega)]

theorem isSpace_lowerChar (c : Char) : isSpace (lowerChar c) = isSpace c := by
  unfold lowerChar
  split
  case isTrue =>
    -- ASCII does not go through the table, but its capitals are the first run there.
    split
    case isTrue hupper =>
      have hcapital : 0x41 ≤ c.toNat ∧ c.toNat ≤ 0x5A := of_decide_eq_true hupper
      have hrun : CharRun.has ⟨0x41, 0x5A, 1⟩ c.toNat := by simp [CharRun.has, hcapital, Nat.mod_one]
      have havoids : CaseRun.avoidsSpace ⟨⟨0x41, 0x5A, 1⟩, 0x20⟩ := by decide
      exact isSpace_shift havoids hrun
    case isFalse => rfl
  case isFalse =>
    refine Text.Case.image_induction (P := fun d => isSpace d = isSpace c) ?_ rfl
    intro r hr hc
    exact isSpace_shift (avoidsSpace_lowerRuns r hr) hc

end Space

namespace Text

theorem words_cons (c : Char) (cs : Text) :
    words (c :: cs) =
      if isSpace c then words cs else growWord c (cs.head?.any (!isSpace ·)) (words cs) := by
  cases cs <;> rfl

theorem growWord_map (f : Char → Char) (c : Char) (inWord : Bool) (ws : List Text) :
    growWord (f c) inWord (ws.map (List.map f)) = (growWord c inWord ws).map (List.map f) := by
  cases ws with
  | nil => rfl
  | cons w ws => cases inWord <;> rfl

/-- Lower-casing neither joins nor parts words. -/
theorem words_lower (t : Text) : words (lower t) = (words t).map lower := by
  induction t with
  | nil => rfl
  | cons c cs ih =>
      have hnext : (lower cs).head?.any (!isSpace ·) = cs.head?.any (!isSpace ·) := by
        cases cs with
        | nil => rfl
        | cons d ds => exact congrArg (!·) (isSpace_lowerChar d)
      change words (lowerChar c :: lower cs) = _
      rw [words_cons, words_cons, isSpace_lowerChar, ih, hnext]
      split
      · rfl
      · exact growWord_map lowerChar c _ _

theorem growWord_false (c : Char) (ws : List Text) : growWord c false ws = [c] :: ws := by
  cases ws <;> rfl

/-- The words of a text are the nonempty pieces that are left when it is split at white space. -/
theorem words_eq_filter_splitOnP (t : Text) : words t = (t.splitOnP isSpace).filter (· ≠ []) := by
  induction t with
  | nil => rfl
  | cons c cs ih =>
      rw [words_cons, List.splitOnP_cons_eq_if_modifyHead, ih]
      split
      · rfl
      · cases cs with
        | nil => rfl
        | cons d ds =>
            rw [List.splitOnP_cons_eq_if_modifyHead d ds]
            by_cases hd : isSpace d
            · simp [hd, growWord_false]
            · obtain ⟨piece, pieces, hsplit⟩ :=
                List.exists_cons_of_ne_nil (List.splitOnP_ne_nil isSpace ds)
              simp [hd, hsplit, growWord]

end Text

end Marginalia
