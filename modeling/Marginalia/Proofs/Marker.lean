import Marginalia.Segment.Marker
import Marginalia.Proofs.Text

/-!
# What the markers stand for

The functions of `Marker` answer with numbers of characters. Here the characters themselves are
spelled out: the margin is a run of horizontal spaces, the first line ends in a line feed unless the
file ends with it, and a license tag or a directive is a first line of a certain form.
-/
namespace Marginalia

/-- A run of horizontal spaces, possibly empty. -/
def Blanks (t : Text) : Prop := ∀ c ∈ t, isHorizontal c = true

/-- The end of a line in front of the text `after`: a line feed, or nothing where the file ends. -/
def EndsLine (ending after : Text) : Prop := ending = ['\n'] ∨ ending = [] ∧ after = []

/-- A line feed, alone or behind a carriage return. -/
def IsLineBreak (t : Text) : Prop := t = ['\n'] ∨ t = ['\r', '\n']

theorem Blanks.newline_notMem {t : Text} (h : Blanks t) : '\n' ∉ t := by
  intro hn
  exact absurd (h _ hn) (by decide)

theorem Blanks.take {t : Text} (h : Blanks t) (n : Nat) : Blanks (t.take n) :=
  fun c hc => h c (List.mem_of_mem_take hc)

namespace Marker

theorem take_margin (t : Text) : t.take (margin t) = t.takeWhile isHorizontal := by
  obtain ⟨r, hr⟩ := List.takeWhile_prefix isHorizontal (l := t)
  calc t.take (margin t) = (t.takeWhile isHorizontal ++ r).take (margin t) := by rw [hr]
    _ = t.takeWhile isHorizontal := List.take_left' rfl

theorem blanks_take_margin (t : Text) : Blanks (t.take (margin t)) := by
  rw [take_margin]
  exact fun c hc => List.mem_takeWhile_imp hc

theorem blanks_take_marginUpTo (limit : Nat) (t : Text) : Blanks (t.take (marginUpTo limit t)) := by
  rw [marginUpTo, ← List.take_take]
  exact (blanks_take_margin t).take limit

theorem margin_le_length (t : Text) : margin t ≤ t.length :=
  (List.takeWhile_prefix isHorizontal).length_le

theorem length_take_marginUpTo (limit : Nat) (t : Text) :
    (t.take (marginUpTo limit t)).length = marginUpTo limit t :=
  List.length_take_of_le ((Nat.min_le_right _ _).trans (margin_le_length t))

theorem margin_append {a b : Text} (hb : ∀ c ∈ b.head?, isHorizontal c = false) :
    margin (a ++ b) = margin a := by
  have hnil : b.takeWhile isHorizontal = [] := by
    cases b with
    | nil => rfl
    | cons c cs => simp [hb c (by simp)]
  unfold margin
  rw [List.takeWhile_append, hnil, List.append_nil]
  split
  · next h => exact h.symm
  · rfl

theorem take_add_of_opens {marker t : Text} {n : Nat} (h : Text.opens marker (t.drop n)) :
    t.take (n + marker.length) = t.take n ++ marker := by
  obtain ⟨behind, hb⟩ := Text.opens_iff.mp h
  rw [List.take_add, hb, List.take_left]

theorem take_blockOpener {t : Text} (h : opensBlock t) :
    t.take (margin t + 2) = t.take (margin t) ++ "/*" :=
  take_add_of_opens h

theorem take_lineOpener {t : Text} (h : opensLine t) :
    t.take (margin t + 2) = t.take (margin t) ++ "//" :=
  take_add_of_opens h

theorem take_lineCommentLead {t : Text} (h : opensLine t) :
    ∃ margin gap, Blanks margin ∧ Blanks gap ∧
      t.take (lineCommentLead t) = margin ++ "//" ++ gap := by
  refine ⟨_, _, blanks_take_margin t, blanks_take_margin (t.drop (margin t + 2)), ?_⟩
  rw [← take_lineOpener h]
  exact List.take_add

/-- The first line together with its end. -/
theorem take_wholeLine (t : Text) :
    ∃ ending, t.take (wholeLine t) = Text.firstLine t ++ ending ∧
      EndsLine ending (t.drop (wholeLine t)) := by
  obtain ⟨behind, he, hb⟩ := Text.eq_firstLine_append t
  have hdrop : t.drop (lineLength t) = behind := by
    calc t.drop (lineLength t) = (Text.firstLine t ++ behind).drop (lineLength t) := by rw [← he]
      _ = behind := List.drop_left
  have htake : t.take (lineLength t) = Text.firstLine t := by
    calc t.take (lineLength t) = (Text.firstLine t ++ behind).take (lineLength t) := by rw [← he]
      _ = Text.firstLine t := List.take_left
  refine ⟨behind.take (lineEnd behind), ?_, ?_⟩
  · rw [wholeLine, hdrop, List.take_add, htake, hdrop]
  · rw [wholeLine, hdrop, ← List.drop_drop, hdrop]
    rcases hb with rfl | ⟨more, rfl⟩
    · exact .inr ⟨rfl, rfl⟩
    · exact .inl rfl

theorem take_lineEnd (t : Text) :
    lineEnd t = 0 ∨ IsLineBreak (t.take (lineEnd t)) := by
  unfold lineEnd
  split
  · exact .inr (.inr rfl)
  · exact .inr (.inl rfl)
  · exact .inl rfl

theorem take_wholeLine_of_firstLine {t opening words : Text}
    (h : Text.firstLine t = opening ++ words) :
    ∃ ending, t.take (wholeLine t) = opening ++ words ++ ending ∧ '\n' ∉ words ∧
      EndsLine ending (t.drop (wholeLine t)) := by
  obtain ⟨ending, htake, hend⟩ := take_wholeLine t
  have hfree := Text.newline_notMem_firstLine t
  rw [h, List.mem_append, not_or] at hfree
  exact ⟨ending, by rw [htake, h], hfree.2, hend⟩

/-- A license tag as it stands in the file. -/
theorem take_licenseLine {t : Text} (h : isLicenseTag t) :
    ∃ margin gap words ending, Blanks margin ∧ Blanks gap ∧ '\n' ∉ words ∧
      EndsLine ending (t.drop (wholeLine t)) ∧
      t.take (wholeLine t) =
        margin ++ "//" ++ gap ++ "SPDX-License-Identifier:" ++ words ++ ending := by
  rw [isLicenseTag, Bool.and_eq_true] at h
  obtain ⟨m, gap, hm, hg, hlead⟩ := take_lineCommentLead h.1
  have htake := take_add_of_opens h.2
  rw [hlead] at htake
  have hfree : '\n' ∉ m ++ "//" ++ gap ++ "SPDX-License-Identifier:" := by
    simp only [List.mem_append, not_or]
    exact ⟨⟨⟨hm.newline_notMem, by decide⟩, hg.newline_notMem⟩, by decide⟩
  have hline : Text.firstLine t = m ++ "//" ++ gap ++ "SPDX-License-Identifier:" ++
      Text.firstLine (t.drop (lineCommentLead t + 24)) := by
    rw [← Text.firstLine_append hfree, ← htake]
    exact congrArg Text.firstLine (List.take_append_drop _ t).symm
  obtain ⟨ending, hwhole, hwords, hend⟩ := take_wholeLine_of_firstLine hline
  exact ⟨m, gap, _, ending, hm, hg, hwords, hend, hwhole⟩

/-- A line directive as it stands in the file. -/
theorem take_directiveLine {t flag : Text} (h : directive? t = some flag) :
    ∃ margin words ending, Blanks margin ∧ '\n' ∉ words ∧ EndsLine ending (t.drop (wholeLine t)) ∧
      t.take (wholeLine t) = margin ++ ("//+" ++ flag ++ "+") ++ words ++ ending := by
  unfold directive? at h
  split at h
  · cases h
  · next behind hbehind =>
    obtain ⟨⟨f, words⟩, hcut, rfl⟩ := Option.map_eq_some_iff.mp h
    have hm := blanks_take_margin t
    have hfree : '\n' ∉ t.take (margin t) ++ "//+" := by
      rw [List.mem_append, not_or]
      exact ⟨hm.newline_notMem, by decide⟩
    have hline : Text.firstLine t = t.take (margin t) ++ ("//+" ++ f ++ "+") ++ words := by
      calc Text.firstLine t
          = Text.firstLine (t.take (margin t) ++ "//+" ++ behind) := by
            rw [List.append_assoc, ← Text.dropOpening?_eq_some.mp hbehind, List.take_append_drop]
        _ = t.take (margin t) ++ "//+" ++ Text.firstLine behind := Text.firstLine_append hfree
        _ = t.take (margin t) ++ ("//+" ++ f ++ "+") ++ words := by
            rw [Text.cut?_eq_some hcut]
            simp only [List.append_assoc]
    obtain ⟨ending, hwhole, hwords, hend⟩ := take_wholeLine_of_firstLine hline
    exact ⟨_, words, ending, hm, hwords, hend, hwhole⟩

end Marker

end Marginalia
