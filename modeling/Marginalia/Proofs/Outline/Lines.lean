import Marginalia.Proofs.Dropped
import Marginalia.Proofs.TwoRuns

/-!
# The outline of a file with line comments only

In a file without quotes, carriage returns and block comments, each physical line can be judged on
its own: it is code, or it is a line comment, a clear mark, a dropped line or an unknown directive.
The outline of the file is made from these judgements alone. Neighbouring lines of code are one
segment, and dropped lines leave nothing behind.
-/
namespace Marginalia

namespace Text

/-- The physical lines of a text, each with its line feed. Only the last one may have none. -/
def physicalLines : Text → List Text
  | [] => []
  | c :: cs =>
    if c = '\n' then [c] :: physicalLines cs
    else
      match physicalLines cs with
      | [] => [[c]]
      | line :: lines => (c :: line) :: lines

end Text

/-- What a physical line is for. -/
inductive LineClass where
  | code
  | dropped
  | clear
  | comment (words : Text)
  | unknown (flag : Text)
deriving DecidableEq, Repr

namespace LineClass

/-- The flag behind a comment marker: what stands between two plus signs. -/
def flag? : Text → Option Text
  | '+' :: t => if '+' ∈ t then some (t.takeWhile (· ≠ '+')) else none
  | _ => none

/-- The class of a line without its line feed. -/
def ofLine (line : Text) : LineClass :=
  match Text.dropOpening? "//" (line.dropWhile isHorizontal) with
  | none => .code
  | some behind =>
    let words := behind.dropWhile isHorizontal
    if Text.opens "SPDX-License-Identifier:" words then .dropped
    else
      match flag? behind with
      | none => .comment words
      | some flag =>
        if flag = ("ignore" : Text) then .dropped
        else if flag = ("clear" : Text) then .clear
        else .unknown flag

end LineClass

namespace Segment

/-- One segment for each line that is not dropped, or the error of the first unknown directive. The
number is that of the first line. -/
def ofLines (file : Text) : Nat → List Text → Except ParseError (List Segment)
  | _, [] => .ok []
  | n, line :: lines =>
    match LineClass.ofLine (Text.firstLine line) with
    | .code => (ofLines file (n + 1) lines).map ({ kind := .code, content := line, line := n } :: ·)
    | .dropped => ofLines file (n + 1) lines
    | .clear => (ofLines file (n + 1) lines).map ({ kind := .clear, content := [], line := n } :: ·)
    | .comment words =>
      (ofLines file (n + 1) lines).map ({ kind := .lineComment, content := words, line := n } :: ·)
    | .unknown flag =>
      .error { fault := .unknownDirective flag, file, line := n, excerpt := Text.firstLine line }

/-- Neighbouring code is one segment, which has the line of the first one. -/
def mergeCode : List Segment → List Segment
  | [] => []
  | s :: rest =>
    match mergeCode rest with
    | [] => [s]
    | t :: more =>
      if s.kind = .code ∧ t.kind = .code then { s with content := s.content ++ t.content } :: more
      else s :: t :: more

/-- A file that is not empty has a segment. -/
def orEmptyCode (text : Text) (segments : List Segment) : List Segment :=
  if text ≠ [] ∧ segments = [] then [{ kind := .code, content := [], line := 1 }] else segments

/-- The segments of a file with line comments only, made line by line. -/
def outline (file text : Text) : Except ParseError (List Segment) :=
  (ofLines file 1 (Text.physicalLines text)).map fun segments =>
    orEmptyCode text (mergeCode segments)

end Segment

namespace Text

section Lines
variable {body ending more : Text}

theorem physicalLines_line (hb : '\n' ∉ body) (he : EndsLine ending more)
    (hne : body ++ ending ≠ []) :
    physicalLines (body ++ ending ++ more) = (body ++ ending) :: physicalLines more := by
  induction body with
  | nil =>
      rcases he with rfl | ⟨rfl, rfl⟩
      · rfl
      · exact absurd rfl hne
  | cons c cs ih =>
      obtain ⟨hc, hcs⟩ := not_or.mp (mt List.mem_cons.mpr hb)
      rw [List.cons_append, List.cons_append, physicalLines, if_neg (Ne.symm hc)]
      by_cases hnil : cs ++ ending = []
      · obtain ⟨rfl, rfl⟩ := List.append_eq_nil_iff.mp hnil
        rcases he with he | ⟨-, rfl⟩
        · cases he
        · rfl
      · rw [ih hcs hnil]

/-- A text is built up from its physical lines, the last one first. -/
theorem line_induction {P : Text → Prop} (nil : P [])
    (line : ∀ body ending more, '\n' ∉ body → EndsLine ending more → body ++ ending ≠ [] → P more →
      P (body ++ ending ++ more)) (t : Text) : P t := by
  induction h : t.length using Nat.strongRecOn generalizing t with
  | ind n ih =>
      by_cases ht : t = []
      · rwa [ht]
      · rcases eq_line_or_append t with hfree | ⟨body, more, hfree, rfl⟩
        · have hlast := line t [] [] hfree (.inr ⟨rfl, rfl⟩) (by simpa using ht) nil
          simpa using hlast
        · have hmore : P more := ih more.length (by simp [← h]; omega) more rfl
          have hnext := line body ['\n'] more hfree (.inl rfl) (by simp) hmore
          simpa using hnext

end Lines

end Text

namespace Segment

section Merge
variable {s : Segment} {rest : List Segment}

theorem mergeCode_cons_of_ne (h : s.kind ≠ .code) :
    mergeCode (s :: rest) = s :: mergeCode rest := by
  rw [mergeCode]
  cases mergeCode rest with
  | nil => rfl
  | cons t more => simp [h]

theorem mergeCode_code_cons_of_ne {t : Segment} (h : t.kind ≠ .code) :
    mergeCode (s :: t :: rest) = s :: t :: mergeCode rest := by
  rw [mergeCode, mergeCode_cons_of_ne h]
  simp [h]

/-- Code may be merged with the code behind it at once. -/
theorem mergeCode_code_cons_code {t : Segment} (hs : s.kind = .code) (ht : t.kind = .code) :
    mergeCode (s :: t :: rest) =
      mergeCode ({ s with content := s.content ++ t.content } :: rest) := by
  rw [mergeCode, mergeCode, mergeCode]
  cases mergeCode rest with
  | nil => simp [hs, ht]
  | cons x more =>
      by_cases hx : x.kind = .code
      · simp [hs, ht, hx]
      · simp [hs, ht, hx]

end Merge

end Segment

namespace Marker

theorem drop_margin (t : Text) : t.drop (margin t) = t.dropWhile isHorizontal := by
  calc t.drop (margin t)
      = (t.takeWhile isHorizontal ++ t.dropWhile isHorizontal).drop (margin t) := by
        rw [List.takeWhile_append_dropWhile]
    _ = t.dropWhile isHorizontal := List.drop_left

theorem directive?_of_dropOpening? {line behind : Text} (hfree : '\n' ∉ line)
    (h : Text.dropOpening? "//" (line.dropWhile isHorizontal) = some behind) :
    directive? line = LineClass.flag? behind := by
  have hline := Text.dropOpening?_eq_some.mp h
  have hbehind : '\n' ∉ behind := by
    intro hmem
    apply hfree
    apply (List.dropWhile_suffix isHorizontal).subset
    rw [hline]
    exact List.mem_append_right _ hmem
  rw [directive?, drop_margin, hline]
  cases behind with
  | nil => rfl
  | cons c t =>
      by_cases hc : c = '+'
      · subst hc
        have hopen : Text.dropOpening? "//+" ("//" ++ '+' :: t) = some t :=
          Text.dropOpening?_eq_some.mpr rfl
        rw [hopen]
        simp only
        rw [Text.firstLine_of_notMem fun hmem => hbehind (List.mem_cons_of_mem _ hmem)]
        exact Text.cut?_singleton '+' t
      · have hopen : Text.dropOpening? "//+" ("//" ++ c :: t) = none := by
          simp [Text.dropOpening?, Ne.symm hc]
        rw [hopen]
        simp [LineClass.flag?, hc]

theorem drop_lineCommentLead {line behind : Text}
    (h : Text.dropOpening? "//" (line.dropWhile isHorizontal) = some behind) :
    line.drop (lineCommentLead line) = behind.dropWhile isHorizontal := by
  have hbehind : line.drop (margin line + 2) = behind := by
    rw [← List.drop_drop, drop_margin, Text.dropOpening?_eq_some.mp h]
    rfl
  rw [lineCommentLead, ← List.drop_drop, hbehind, drop_margin]

end Marker

/-- The class of a line says what the markers at its front are. -/
theorem LineClass.ofLine_eq {line : Text} (hfree : '\n' ∉ line) :
    ofLine line =
      if Marker.opensLine line then
        if Marker.isLicenseTag line then .dropped
        else
          match Marker.directive? line with
          | none => .comment (line.drop (Marker.lineCommentLead line))
          | some flag =>
            if flag = ("ignore" : Text) then .dropped
            else if flag = ("clear" : Text) then .clear
            else .unknown flag
      else .code := by
  have hopen : Marker.opensLine line =
      (Text.dropOpening? "//" (line.dropWhile isHorizontal)).isSome := by
    rw [Marker.opensLine, Marker.drop_margin, Text.opens]
  cases h : Text.dropOpening? "//" (line.dropWhile isHorizontal) with
  | none =>
      rw [h, Option.isSome_none] at hopen
      rw [ofLine, h, hopen]
      rfl
  | some behind =>
      rw [h, Option.isSome_some] at hopen
      rw [ofLine, h, if_pos hopen, Marker.isLicenseTag, hopen, Marker.drop_lineCommentLead h,
        Marker.directive?_of_dropOpening? hfree h]
      rfl

end Marginalia
