import Marginalia.Proofs.FirstLine
import Marginalia.Proofs.Origin

/-!
# Lines that are dropped

A text drops its first line if it opens with a license tag or an ignore directive. That can be seen
from the opening alone: the words behind it, the line end and the lines that follow do not matter.
Hence the number of characters in front of the first line that is not dropped can be read off a
text.
-/
namespace Marginalia

namespace Marker

/-- Whether the first line of a text is dropped. -/
def Drops (t : Text) : Prop := isLicenseTag t ∨ directive? t = some ("ignore" : Text)
deriving Decidable

/-- What makes a line a dropped one. -/
inductive DroppedOpening : Text → Prop
  | license {margin gap : Text} : Blanks margin → Blanks gap →
      DroppedOpening (margin ++ "//" ++ gap ++ "SPDX-License-Identifier:")
  | ignore {margin : Text} : Blanks margin → DroppedOpening (margin ++ "//+ignore+")

theorem DroppedOpening.newline_notMem {opening : Text} (h : DroppedOpening opening) :
    '\n' ∉ opening := by
  cases h with
  | license hm hg =>
      simp only [List.mem_append, not_or]
      exact ⟨⟨⟨hm.newline_notMem, by decide⟩, hg.newline_notMem⟩, by decide⟩
  | ignore hm =>
      simp only [List.mem_append, not_or]
      exact ⟨hm.newline_notMem, by decide⟩

theorem margin_blanks_append {blanks t : Text} (hb : Blanks blanks)
    (ht : ∀ c ∈ t.head?, isHorizontal c = false) : margin (blanks ++ t) = blanks.length := by
  rw [margin_append ht, margin, List.takeWhile_eq_self_iff.mpr hb]

theorem drop_margin_blanks_append {blanks t : Text} (hb : Blanks blanks)
    (ht : ∀ c ∈ t.head?, isHorizontal c = false) :
    (blanks ++ t).drop (margin (blanks ++ t)) = t := by
  rw [margin_blanks_append hb ht, List.drop_left]

theorem opensLine_append {blanks : Text} (hb : Blanks blanks) (behind : Text) :
    opensLine (blanks ++ ("//" ++ behind)) := by
  rw [opensLine, drop_margin_blanks_append hb (by simp +decide), Text.opens_iff]
  exact ⟨behind, rfl⟩

theorem DroppedOpening.drops {opening : Text} (h : DroppedOpening opening) (more : Text) :
    Drops (opening ++ more) := by
  cases h with
  | @license m gap hm hg =>
      left
      obtain ⟨behind, hbehind⟩ : ∃ behind, behind = gap ++ ("SPDX-License-Identifier:" ++ more) :=
        ⟨_, rfl⟩
      have htext : m ++ "//" ++ gap ++ "SPDX-License-Identifier:" ++ more =
          m ++ ("//" ++ behind) := by
        simp only [hbehind, List.append_assoc]
      have hlead : (m ++ ("//" ++ behind)).drop (margin (m ++ ("//" ++ behind)) + 2) = behind := by
        rw [← List.drop_drop, drop_margin_blanks_append hm (by simp +decide)]
        rfl
      rw [htext, isLicenseTag, opensLine_append hm, Bool.true_and, Text.opens_iff]
      refine ⟨more, ?_⟩
      rw [lineCommentLead, ← List.drop_drop, hlead, hbehind,
        drop_margin_blanks_append hg (by simp +decide)]
  | @ignore m hm =>
      right
      have htext : m ++ "//+ignore+" ++ more = m ++ ("//+" ++ ("ignore+" ++ more)) := by
        simp
      have hopen : Text.dropOpening? "//+" ("//+" ++ ("ignore+" ++ more)) =
          some ("ignore+" ++ more) :=
        Text.dropOpening?_eq_some.mpr rfl
      have hcut : Text.cut? "+" ("ignore+" : Text) = some (("ignore" : Text), []) := by decide
      rw [htext, directive?, drop_margin_blanks_append hm (by simp +decide), hopen]
      simp only
      rw [Text.firstLine_append (by decide), Text.cut?_append hcut (by decide), Option.map_some]

theorem drops_iff {t : Text} :
    Drops t ↔ ∃ opening more, DroppedOpening opening ∧ t = opening ++ more := by
  constructor
  · intro h
    have htake := List.take_append_drop (wholeLine t) t
    rcases h with h | h
    · obtain ⟨m, gap, words, ending, hm, hg, -, -, hline⟩ := take_licenseLine h
      refine ⟨_, words ++ ending ++ t.drop (wholeLine t), .license hm hg, ?_⟩
      rw [hline] at htake
      simpa only [List.append_assoc] using htake.symm
    · obtain ⟨m, words, ending, hm, -, -, hline⟩ := take_directiveLine h
      refine ⟨_, words ++ ending ++ t.drop (wholeLine t), .ignore hm, ?_⟩
      rw [hline] at htake
      simpa using htake.symm
  · rintro ⟨opening, more, h, rfl⟩
    exact h.drops more

theorem Drops.append {t : Text} (h : Drops t) (y : Text) : Drops (t ++ y) := by
  obtain ⟨opening, more, ho, rfl⟩ := drops_iff.mp h
  rw [List.append_assoc]
  exact ho.drops (more ++ y)

theorem Drops.opensLine {t : Text} (h : Drops t) : opensLine t := by
  obtain ⟨opening, more, ho, rfl⟩ := drops_iff.mp h
  cases ho with
  | license hm _ =>
      simp only [List.append_assoc]
      exact opensLine_append hm _
  | @ignore m hm =>
      have htext : m ++ "//+ignore+" ++ more = m ++ ("//" ++ ("+ignore+" ++ more)) := by simp
      rw [htext]
      exact opensLine_append hm _

theorem Drops.ne_nil {t : Text} (h : Drops t) : t ≠ [] := by
  rintro rfl
  exact absurd h (by decide)

/-- A directive has its plus sign where a license tag has its first letter. -/
theorem isLicenseTag_of_directive? {t flag : Text} (h : directive? t = some flag) :
    isLicenseTag t = false := by
  unfold directive? at h
  split at h
  · cases h
  · next behind hopen =>
    have hplus : t.drop (margin t + 2) = '+' :: behind := by
      rw [← List.drop_drop, Text.dropOpening?_eq_some.mp hopen]
      rfl
    have hlead : lineCommentLead t = margin t + 2 := by
      simp only [lineCommentLead, hplus]
      rfl
    simp [isLicenseTag, hlead, hplus, Text.opens, Text.dropOpening?]

theorem not_opensLine_of_opensBlock {t : Text} (h : opensBlock t) : ¬opensLine t := by
  intro hline
  obtain ⟨x, hx⟩ := Text.opens_iff.mp h
  obtain ⟨y, hy⟩ := Text.opens_iff.mp hline
  rw [hx] at hy
  cases hy

end Marker

namespace Segment
open Marker

section DroppedLine
variable {after line : Text}

theorem DroppedLine.exists_opening (h : DroppedLine after line) :
    ∃ opening words ending, DroppedOpening opening ∧ '\n' ∉ opening ++ words ∧
      EndsLine ending after ∧ line = opening ++ words ++ ending := by
  have hfree : ∀ {opening words : Text}, DroppedOpening opening → '\n' ∉ words →
      '\n' ∉ opening ++ words := by
    intro opening words ho hw
    rw [List.mem_append, not_or]
    exact ⟨ho.newline_notMem, hw⟩
  cases h with
  | license hm hg hw he =>
      have ho := DroppedOpening.license hm hg
      exact ⟨_, _, _, ho, hfree ho hw, he, rfl⟩
  | ignore hm hw he =>
      have ho := DroppedOpening.ignore hm
      exact ⟨_, _, _, ho, hfree ho hw, he, rfl⟩

theorem DroppedLine.drops (h : DroppedLine after line) (y : Text) : Drops (line ++ y) := by
  obtain ⟨opening, words, ending, ho, -, -, rfl⟩ := h.exists_opening
  simp only [List.append_assoc]
  exact ho.drops _

theorem DroppedLine.wholeLine_eq (h : DroppedLine after line) :
    wholeLine (line ++ after) = line.length := by
  obtain ⟨opening, words, ending, -, hfree, he, rfl⟩ := h.exists_opening
  exact wholeLine_line hfree he

theorem DroppedLine.exists_body (h : DroppedLine after line) (hn : '\n' ∈ line) :
    ∃ body, '\n' ∉ body ∧ line = body ++ ['\n'] := by
  obtain ⟨opening, words, ending, -, hfree, he, rfl⟩ := h.exists_opening
  rcases he with rfl | ⟨rfl, -⟩
  · exact ⟨_, hfree, rfl⟩
  · rw [List.append_nil] at hn
    exact absurd hn hfree

theorem DroppedLine.of_append {y : Text} (h : DroppedLine (after ++ y) line) :
    DroppedLine after line := by
  cases h with
  | license hm hg hw he => exact .license hm hg hw (EndsLine.of_append he)
  | ignore hm hw he => exact .ignore hm hw (EndsLine.of_append he)

end DroppedLine

theorem DroppedLines.drops {after t : Text} (h : DroppedLines after t) (ht : t ≠ []) : Drops t := by
  cases h with
  | done => exact absurd rfl ht
  | drop hline _ => exact hline.drops _

/-- The number of characters of the dropped lines at the front of a text. -/
def lead (t : Text) : Nat :=
  if _h : Drops t then wholeLine t + lead (t.drop (wholeLine t)) else 0
termination_by t.length
decreasing_by
  have hpos := wholeLine_pos (Drops.ne_nil _h)
  have hlen := List.length_pos_iff.mpr (Drops.ne_nil _h)
  rw [List.length_drop]
  omega

/-- Dropped lines in front of a text that does not drop its first line are its lead. -/
theorem DroppedLines.lead_append {dropped own after : Text}
    (h : DroppedLines (own ++ after) dropped) (hown : ¬Drops (own ++ after)) :
    lead (dropped ++ own) = dropped.length := by
  unfold DroppedLines at h
  generalize hc : ([] : Text) = content at h
  induction h with
  | done =>
      have hd : ¬Drops own := fun h => hown (h.append after)
      rw [List.nil_append, lead, dif_neg hd, List.length_nil]
  | keep c _ _ => cases hc
  | @drop line source content hline hrest ih =>
      rw [← List.append_assoc] at hline
      rw [lead, List.append_assoc, dif_pos (hline.drops _), hline.of_append.wholeLine_eq,
        List.drop_left, ih hc, List.length_append]

end Segment

end Marginalia
