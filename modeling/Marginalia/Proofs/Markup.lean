import Marginalia.Page.Html
import Marginalia.Proofs.Percent
import Mathlib.Data.List.Forall2

/-!
# Names cannot write markup

The marks of a page are its angle brackets and quotation marks, in order. What is escaped for text,
for an attribute or for a link has none. Every name, anchor and line number of a document is escaped
where it goes onto the page, so the marks of a page are those of its fixed parts and of the markup
rendered elsewhere.
-/
namespace Marginalia

namespace Page

/-- The characters that markup is made of. -/
def isMark (c : Char) : Bool := c == '<' || c == '>' || c == '"'

/-- The marks of a text, in order. -/
def marks (t : Text) : Text := t.filter isMark

section Marks
variable {α : Type}

@[simp] theorem marks_append (t u : Text) : marks (t ++ u) = marks t ++ marks u :=
  List.filter_append t u

theorem marks_flatMap (f : α → Text) (l : List α) :
    marks (l.flatMap f) = l.flatMap fun a => marks (f a) := by
  induction l with
  | nil => rfl
  | cons a l ih => rw [List.flatMap_cons, marks_append, ih, List.flatMap_cons]

/-- What never writes a mark for one character writes none for many. -/
theorem marks_flatMap_eq_nil {f : α → Text} (hf : ∀ a, marks (f a) = []) (l : List α) :
    marks (l.flatMap f) = [] := by
  rw [marks_flatMap, List.flatMap_eq_nil_iff]
  intro a _
  exact hf a

/-- Lists whose members write the same marks one by one write the same marks as a whole. -/
theorem marks_flatMap_congr {f : α → Text} {R : α → α → Prop}
    (hf : ∀ a b, R a b → marks (f a) = marks (f b)) {l l' : List α} (h : List.Forall₂ R l l') :
    marks (l.flatMap f) = marks (l'.flatMap f) := by
  induction h with
  | nil => rfl
  | cons hab _ ih =>
      simp only [List.flatMap_cons, marks_append]
      rw [hf _ _ hab, ih]

end Marks

section Escaped

theorem marks_escapeChar (c : Char) : marks (escapeChar c) = [] := by
  unfold escapeChar
  split_ifs with _ hquote _ _ _ hless hgreater
  case neg => simp [marks, isMark, hquote, hless, hgreater]
  all_goals decide

@[simp] theorem marks_escape (t : Text) : marks (escape t) = [] :=
  marks_flatMap_eq_nil marks_escapeChar t

@[simp] theorem marks_fragment (slug : Text) : marks (fragment slug) = [] := by
  have hbyte : ∀ b, marks (Percent.escapeByte Percent.lowerDigits Percent.isLinkPlain b) = [] :=
    Percent.forall_byte (by decide +kernel)
  unfold fragment Percent.escape
  exact marks_flatMap_eq_nil hbyte _

theorem marks_contentsLine (e e' : Entry) : marks (contentsLine e) = marks (contentsLine e') := by
  unfold contentsLine
  simp only [marks_append, marks_escape, marks_fragment]

end Escaped

end Page

open Page

/-- Cards with the same markup, and alike in whether they show code. -/
structure FinishedCard.SameMarkup (c c' : FinishedCard) : Prop where
  hasCode : c.hasCode = c'.hasCode
  codeHtml : c.codeHtml = c'.codeHtml
  blockCommentHtml : c.blockCommentHtml = c'.blockCommentHtml
  lineCommentHtml : c.lineCommentHtml = c'.lineCommentHtml

/-- Documents of the same shape with the same markup and the same style. Nothing is said about
names, slugs, tags and line numbers. -/
structure Document.SameMarkup (d d' : Document) : Prop where
  contents : d.contents.length = d'.contents.length
  files : List.Forall₂ (fun f f' => List.Forall₂ FinishedCard.SameMarkup f.cards f'.cards)
    d.files d'.files
  style : d.style = d'.style

theorem Page.marks_panel (c c' : FinishedCard) (h : c.SameMarkup c') :
    marks (panel c) = marks (panel c') := by
  unfold panel
  rw [h.hasCode, h.codeHtml]
  split
  · simp only [marks_append, marks_escape]
  · rfl

theorem Page.marks_row (c c' : FinishedCard) (h : c.SameMarkup c') :
    marks (row c) = marks (row c') := by
  unfold row
  simp only [marks_append, marks_panel c c' h, h.blockCommentHtml, h.lineCommentHtml]

theorem Page.marks_fileSection (f f' : WovenFile)
    (h : List.Forall₂ FinishedCard.SameMarkup f.cards f'.cards) :
    marks (fileSection f) = marks (fileSection f') := by
  have hrows := marks_flatMap_congr marks_row h
  unfold fileSection
  simp only [marks_append, marks_escape, hrows]

/-- Documents of the same shape and with the same markup have pages with the same marks, under any
two titles and whatever their names, anchors, tags and line numbers are. -/
theorem Page.render_marks {ε : Type} (k : Colorist ε) (title title' : Text) {d d' : Document}
    (h : d.SameMarkup d') :
    (k.sheet d.style).map (fun sheet => marks (render title d sheet)) =
      (k.sheet d'.style).map fun sheet => marks (render title' d' sheet) := by
  have hcontents : marks (d.contents.flatMap contentsLine) =
      marks (d'.contents.flatMap contentsLine) := by
    have hlines : List.Forall₂ (fun _ _ => True) d.contents d'.contents :=
      List.forall₂_of_length_eq_of_get h.contents fun _ _ _ => trivial
    exact marks_flatMap_congr (fun e e' _ => marks_contentsLine e e') hlines
  have hfiles := marks_flatMap_congr marks_fileSection h.files
  have hpages (sheet : Text) :
      marks (render title d sheet) = marks (render title' d' sheet) := by
    unfold render
    simp only [marks_append, marks_escape, hcontents, hfiles]
  rw [h.style]
  simp only [hpages]

theorem Page.render_marks_hostile_names :
    let card : FinishedCard :=
      { code := "x", gutter := "1", codeHtml := "<b>x</b>", blockCommentHtml := "<h1>T</h1>" }
    let d : Document :=
      { files := [{ fileSlug := "a", file := "a", language := { name := "c", lexer := "c" },
                    cards := [card] }]
        contents := [{ title := "a", slug := "a", tag := "file" }]
        style := "github" }
    let d' : Document :=
      { files := [{ fileSlug := "\"><script>", file := "</h2><script>",
                    language := { name := "go", lexer := "go" },
                    cards := [{ card with code := "y", gutter := "</pre>" }] }]
        contents := [{ title := "</a><script>", slug := "\"><script>", tag := "\" onload=\"" }]
        style := "github" }
    d.SameMarkup d' ∧
      ((Colorist.plain : Colorist Empty).sheet d.style).map (fun sheet => marks (render "T" d sheet))
        = ((Colorist.plain : Colorist Empty).sheet d'.style).map
            fun sheet => marks (render "</title><script>" d' sheet) := by
  intro card d d'
  have hcard : card.SameMarkup { card with code := "y", gutter := "</pre>" } := ⟨rfl, rfl, rfl, rfl⟩
  have h : d.SameMarkup d' := ⟨rfl, .cons (.cons hcard .nil) .nil, rfl⟩
  exact ⟨h, render_marks Colorist.plain "T" "</title><script>" h⟩

end Marginalia
