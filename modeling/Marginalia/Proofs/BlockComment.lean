import Marginalia.Proofs.Failure
import Marginalia.Proofs.Opening
import Mathlib.Data.List.Forall2

/-!
# Block comments and their margins

A block comment of its own is read without its margin. Each line loses as many blanks as the opener
is indented, and a few more, so that a comment which is moved to the right with all of its lines
loses what it has gained. Nothing in front of the comment takes notice of the move, since the blanks
come in between characters that close no literal.
-/
namespace Marginalia

namespace Text

/-- Joined lines are the first one and the others, each behind a line feed. -/
theorem join_newline_cons (t : Text) (ts : List Text) :
    join "\n" (t :: ts) = t ++ ts.flatMap ('\n' :: ·) := by
  induction ts generalizing t with
  | nil => simp [join]
  | cons u us ih => rw [join_cons_cons, ih, List.flatMap_cons]; rfl

/-- A terminator is found behind a text that does not hold one. -/
theorem cut?_terminator {body : Text} (h : ¬("*/" : Text) <:+: body) (z : Text) :
    cut? "*/" (body ++ ("*/" ++ z)) = some (body, z) := by
  induction body with
  | nil => rfl
  | cons c cs ih =>
      have hcs : ¬("*/" : Text) <:+: cs := fun hin => h (hin.trans (List.suffix_cons c cs).isInfix)
      have hopen : dropOpening? "*/" (c :: (cs ++ ("*/" ++ z))) = none := by
        rw [Option.eq_none_iff_forall_ne_some]
        intro behind hb
        obtain ⟨rfl, hcons⟩ := List.cons.inj (dropOpening?_eq_some.mp hb)
        cases cs with
        | nil => exact absurd (List.cons.inj hcons).1 (by decide)
        | cons d ds =>
            obtain ⟨rfl, -⟩ := List.cons.inj hcons
            exact h ⟨[], ds, rfl⟩
      rw [List.cons_append, cut?, hopen]
      simp only [ih hcs, Option.map_some]

end Text

/-- What may stand on one line of a block comment. -/
def CommentLine (line : Text) : Prop := '\n' ∉ line ∧ ¬("*/" : Text) <:+: line
deriving Decidable

/-- A block comment of its own: its margin, what stands behind the opener, and the further lines
down to the terminator. -/
structure BlockComment where
  margin : Text
  first : Text
  further : List Text
  blanks : Blanks margin
  body : ∀ line ∈ first :: further, CommentLine line

/-- A line that has moved `k` places to the right. A line with nothing on it, but for the return of
its line end, may stay as it is. -/
inductive Indented (k : Nat) : Text → Text → Prop
  | moved {blanks : Text} (line : Text) : Blanks blanks → blanks.length = k →
      Indented k line (blanks ++ line)
  | empty {line : Text} : line = [] ∨ line = ['\r'] → Indented k line line

theorem CommentLine.outdent {line : Text} (h : CommentLine line) (indent : Nat) :
    CommentLine (Segment.outdent indent line) :=
  ⟨fun hm => h.1 (List.mem_of_mem_drop hm),
    fun hin => h.2 (hin.trans (List.drop_suffix _ line).isInfix)⟩

section Indented
open Segment
variable {k : Nat} {line line' : Text} {lines lines' : List Text}

/-- Blanks in front of a line are taken off it before those that it had. -/
theorem outdent_blanks_append {blanks : Text} (h : Blanks blanks) (n : Nat) (line : Text) :
    outdent (n + blanks.length) (blanks ++ line) = outdent n line := by
  rw [outdent, List.takeWhile_append_of_pos h, List.length_append, Nat.add_comm n,
    Nat.add_min_add_left, List.drop_length_add_append]
  rfl

theorem Indented.outdent_eq (h : Indented k line line') (n : Nat) :
    outdent (n + k) line' = outdent n line := by
  cases h with
  | moved line hb hk =>
      rw [← hk]
      exact outdent_blanks_append hb n line
  | empty he =>
      have hnone : line.takeWhile isHorizontal = [] := by
        rcases he with rfl | rfl <;> decide
      simp [outdent, hnone]

theorem map_outdent_eq (h : List.Forall₂ (Indented k) lines lines') (n : Nat) :
    lines'.map (outdent (n + k)) = lines.map (outdent n) := by
  induction h with
  | nil => rfl
  | cons hline _ ih => rw [List.map_cons, List.map_cons, hline.outdent_eq, ih]

theorem Indented.commentLine (h : Indented k line line') (hline : CommentLine line) :
    CommentLine line' := by
  cases h with
  | moved line hb hk =>
      rw [CommentLine, List.mem_append, not_or, Marker.infix_blanks_append_iff hb]
      exact ⟨⟨hb.newline_notMem, hline.1⟩, hline.2⟩
  | empty _ => exact hline

theorem commentLine_of_forall₂ (h : List.Forall₂ (Indented k) lines lines')
    (hlines : ∀ line ∈ lines, CommentLine line) : ∀ line ∈ lines', CommentLine line := by
  induction h with
  | nil => exact hlines
  | cons hline _ ih =>
      rw [List.forall_mem_cons] at hlines ⊢
      exact ⟨hline.commentLine hlines.1, ih hlines.2⟩

end Indented

namespace BlockComment
open Segment Marker

/-- The comment as it stands in the file. -/
def text (c : BlockComment) : Text :=
  c.margin ++ ("/*" ++ (Text.join "\n" (c.first :: c.further) ++ "*/"))

/-- What is read of the comment. -/
def content (c : BlockComment) : Text :=
  Text.join "\n" ((c.first :: c.further).map (outdent (c.margin.length + Scanner.blockIndentGap)))

/-- The segment of the comment, behind dropped lines and in front of what else belongs to it. -/
def segment (c : BlockComment) (lead : Text) (line : Nat) (tail : Text) : Segment :=
  { kind := .blockComment, content := c.content, line, source := lead ++ (c.text ++ tail) }

/-- The comment behind another margin and with its further lines moved. -/
def moved (c : BlockComment) {k : Nat} {margin : Text} {further : List Text} (hm : Blanks margin)
    (h : List.Forall₂ (Indented k) c.further further) : BlockComment where
  margin := margin
  first := c.first
  further := further
  blanks := hm
  body := by
    have hbody := c.body
    rw [List.forall_mem_cons] at hbody ⊢
    exact ⟨hbody.1, commentLine_of_forall₂ h hbody.2⟩

section Comment
variable (c : BlockComment)

theorem text_append (v : Text) : c.text ++ v =
    c.margin ++ ("/*" ++ (c.first ++ (c.further.flatMap ('\n' :: ·) ++ ("*/" ++ v)))) := by
  rw [text, Text.join_newline_cons]
  simp only [List.append_assoc]

theorem opensBlock_text (v : Text) : opensBlock (c.text ++ v) := by
  rw [text_append]
  exact opensBlock_append_of_blanks c.blanks rfl

theorem newlines_flatMap {lines : List Text} (h : ∀ line ∈ lines, '\n' ∉ line) :
    Text.newlines (lines.flatMap ('\n' :: ·)) = lines.length := by
  induction lines with
  | nil => rfl
  | cons line lines ih =>
      obtain ⟨hline, hlines⟩ := List.forall_mem_cons.mp h
      have hnone : Text.newlines line = 0 := List.count_eq_zero.mpr hline
      rw [List.flatMap_cons, Text.newlines_append, Text.newlines_cons, hnone, ih hlines,
        if_pos rfl, List.length_cons]
      omega

/-- A comment has one line feed in front of each further line. -/
theorem newlines_text : Text.newlines c.text = c.further.length := by
  obtain ⟨hfirst, hfurther⟩ := List.forall_mem_cons.mp c.body
  have hmargin : Text.newlines c.margin = 0 := c.blanks.newlines_eq
  have hnone : Text.newlines c.first = 0 := List.count_eq_zero.mpr hfirst.1
  have hopener : Text.newlines "/*" = 0 := rfl
  have hterminator : Text.newlines "*/" = 0 := rfl
  rw [text, Text.join_newline_cons]
  simp only [Text.newlines_append, hmargin, hnone, hopener, hterminator,
    newlines_flatMap fun line hline => (hfurther line hline).1]
  omega

/-- From its first line feed on, the content holds what is left of the further lines. -/
theorem content_below : c.content.drop (lineLength c.content) =
    (c.further.map (outdent (c.margin.length + Scanner.blockIndentGap))).flatMap ('\n' :: ·) := by
  rw [content, List.map_cons, Text.join_newline_cons]
  have hfirst : '\n' ∉ outdent (c.margin.length + Scanner.blockIndentGap) c.first :=
    ((c.body _ List.mem_cons_self).outdent _).1
  cases c.further with
  | nil => simp [lineLength, Text.firstLine_of_notMem hfirst]
  | cons line further =>
      rw [List.map_cons, List.flatMap_cons, List.cons_append,
        lineLength_append_newline hfirst, List.drop_left]

variable {k : Nat} {margin : Text} {further : List Text}

theorem moved_content_below (hm : Blanks margin) (h : List.Forall₂ (Indented k) c.further further)
    (hlen : margin.length = c.margin.length + k) :
    (c.moved hm h).content.drop (lineLength (c.moved hm h).content) =
      c.content.drop (lineLength c.content) := by
  have hindent : margin.length + Scanner.blockIndentGap =
      c.margin.length + Scanner.blockIndentGap + k := by
    omega
  rw [content_below, content_below]
  simp only [moved, hindent, map_outdent_eq h]

theorem newlines_moved (hm : Blanks margin) (h : List.Forall₂ (Indented k) c.further further) :
    Text.newlines (c.moved hm h).text = Text.newlines c.text := by
  rw [newlines_text, newlines_text]
  exact h.length_eq.symm

end Comment

end BlockComment

namespace Marker

section StaysOpen
variable {k : Nat} {t t' blanks blanks' : Text} {lines lines' : List Text}

theorem StaysOpen.append (h : StaysOpen t t') (a : Text) : StaysOpen (a ++ t) (a ++ t') := by
  intro q before hq hnone
  rw [closingQuote_append_eq_none] at hnone ⊢
  exact ⟨hnone.1, h q _ hq hnone.2⟩

theorem IsQuote.notMem_blanks {q : Char} (hq : IsQuote q) (hb : Blanks blanks) : q ∉ blanks := by
  intro hmem
  have hblank := hb q hmem
  rcases hq with rfl | rfl
  · exact absurd hblank (by decide)
  · exact absurd hblank (by decide)

/-- A character that is no quote does not depend on what stands in front of it. -/
theorem closingQuote_cons_of_ne {q c : Char} (hc : c ≠ q) (before : Char) (t : Text) :
    closingQuote q before (c :: t) = (closingQuote q c t).map (· + 1) :=
  if_neg fun h => hc h.1

/-- If a quote stays open where it may be closed at once, it does so behind any character. -/
theorem closingQuote_eq_none_of_ne {q before : Char} (hb : before ≠ '\\')
    (h : closingQuote q before t = none) (before' : Char) : closingQuote q before' t = none := by
  cases t with
  | nil => rfl
  | cons c cs =>
      by_cases hc : c = q
      · rw [closingQuote, if_pos ⟨hc, hb⟩] at h
        cases h
      · rwa [closingQuote_cons_of_ne hc] at h ⊢

theorem staysOpen_blanks (hb : Blanks blanks) (hb' : Blanks blanks') {c : Char} (hc : ¬IsQuote c)
    (t : Text) : StaysOpen (blanks ++ c :: t) (blanks' ++ c :: t) := by
  intro q before hq hnone
  have hne : c ≠ q := fun h => hc (h ▸ hq)
  rw [closingQuote_append_of_notMem (hq.notMem_blanks hb), closingQuote_cons_of_ne hne] at hnone
  rw [closingQuote_append_of_notMem (hq.notMem_blanks hb'), closingQuote_cons_of_ne hne]
  simpa using hnone

/-- Behind a line feed blanks may be inserted. -/
theorem staysOpen_indented {line line' : Text} (h : Indented k line line') (t : Text) :
    StaysOpen ('\n' :: (line ++ t)) ('\n' :: (line' ++ t)) := by
  cases h with
  | empty _ => exact fun _ _ _ hnone => hnone
  | moved line hb _ =>
      intro q before hq hnone
      have hne : '\n' ≠ q := by rcases hq with rfl | rfl <;> decide
      rw [closingQuote_cons_of_ne hne, Option.map_eq_none_iff] at hnone ⊢
      rw [List.append_assoc, closingQuote_append_of_notMem (hq.notMem_blanks hb),
        Option.map_eq_none_iff]
      exact closingQuote_eq_none_of_ne (by decide) hnone _

theorem staysOpen_lines (h : List.Forall₂ (Indented k) lines lines') (t : Text) :
    StaysOpen (lines.flatMap ('\n' :: ·) ++ t) (lines'.flatMap ('\n' :: ·) ++ t) := by
  induction h with
  | nil => exact fun _ _ _ hnone => hnone
  | @cons line line' lines lines' hline _ ih =>
      intro q before hq hnone
      rw [List.flatMap_cons, List.append_assoc] at hnone ⊢
      have hrest := ih.append ('\n' :: line) q before hq hnone
      exact staysOpen_indented hline _ q before hq hrest

end StaysOpen

end Marker

namespace BlockComment
open Marker

/-- The moved comment may stand for the comment. -/
theorem opensAlike_moved (c : BlockComment) {k : Nat} {margin : Text} {further : List Text}
    (hm : Blanks margin) (h : List.Forall₂ (Indented k) c.further further)
    (hlen : margin.length = c.margin.length + k) (v : Text) :
    OpensAlike (c.text ++ v) ((c.moved hm h).text ++ v) where
  opens := c.opensBlock_text v
  opens' := (c.moved hm h).opensBlock_text v
  head := by
    rw [text_append, text_append]
    intro hhead
    have hnil : margin = [] := by
      cases margin with
      | nil => rfl
      | cons b bs =>
          obtain rfl : b = '/' := Option.some.inj hhead
          exact absurd (hm '/' List.mem_cons_self) (by decide)
    have hnil' : c.margin = [] := by
      rw [hnil, List.length_nil] at hlen
      exact List.eq_nil_of_length_eq_zero (by omega)
    rw [hnil']
    rfl
  unclosed := by
    intro q before hq hnone
    rw [text_append] at hnone ⊢
    have hlines := (staysOpen_lines h ("*/" ++ v)).append (c.margin ++ ("/*" ++ c.first)) q before
      hq
    simp only [List.append_assoc] at hlines
    exact staysOpen_blanks c.blanks hm (by unfold IsQuote; decide) _ q before hq (hlines hnone)

end BlockComment

end Marginalia
