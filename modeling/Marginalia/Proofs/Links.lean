import Marginalia.Proofs.Distinct
import Marginalia.Proofs.StartTag

/-!
# Links lead to their anchors

The page of a woven document is read back. Its sidebar has one list item for each line of the table
of contents, with a link whose fragment means the slug of the line. Its sections are those of the
files in order, and the identifier of a section is the slug of its file. As no slug is issued twice,
the link of a file leads to the section of that file and to no other section. Of all elements of the
page it leads to that section unless rendered markup is in the way: a heading below the level limit
keeps the identifier that its author gave it, and may stand in front of the section.
-/
namespace Marginalia

namespace Page

/-- The anchor that a link leads to: the fragment of its address, with percent forms read. -/
def StartTag.target? (tag : StartTag) : Option Text := do
  let address ← tag.attribute? "href"
  let fragment ← Text.dropOpening? "#" address
  Utf8.decode? (← Percent.unescape? fragment)

/-- The identifier of the element that opens a piece of markup. -/
def anchor? (markup : Text) : Option Text := (startTags markup).head?.bind (·.attribute? "id")

section Sidebar

theorem notMem_of_isSlugChar {c : Char} (h : isSlugChar c) : c ∉ ("\x00&<>" : Text) := by
  have hall : ("\x00&<>" : Text).all (!isSlugChar ·) := by decide
  intro hmem
  have hnot := List.all_eq_true.mp hall c hmem
  simp [h] at hnot

theorem and_notMem_fragment (slug : Text) : '&' ∉ fragment slug := by
  have hbyte : ∀ b, '&' ∉ Percent.escapeByte Percent.lowerDigits Percent.isLinkPlain b :=
    Percent.forall_byte (by decide +kernel)
  intro hmem
  obtain ⟨b, -, hb⟩ := List.mem_flatMap.mp hmem
  exact hbyte b hb

theorem quote_notMem_fragment (slug : Text) : '"' ∉ fragment slug :=
  notMem_of_marks (marks_fragment slug) rfl

theorem quote_notMem_escape (t : Text) : '"' ∉ escape t := notMem_of_marks (marks_escape t) rfl

theorem less_notMem_escape (t : Text) : '<' ∉ escape t := notMem_of_marks (marks_escape t) rfl

/-- The tags of a line of the sidebar. -/
def lineTags (e : Entry) : List StartTag :=
  [{ name := "li", attributes := [("class", "toc-" ++ e.tag)] },
   { name := "a", attributes := [("href", "#" ++ fragment e.slug)] }]

theorem feed_contentsLine (found : List StartTag) {e : Entry} (h : ∀ c ∈ e.tag, isSlugChar c) :
    (Reader.mk found .text).feed (contentsLine e) = ⟨found ++ lineTags e, .text⟩ := by
  have hclass : Markdown.Entity.expand ("toc-" ++ escape e.tag) = "toc-" ++ e.tag := by
    have hescape : escape ("toc-" ++ e.tag) = "toc-" ++ escape e.tag := List.flatMap_append
    rw [← hescape]
    have hchars : ∀ c ∈ "toc-" ++ e.tag, isSlugChar c :=
      List.forall_mem_append.mpr ⟨List.all_eq_true.mp (by decide), h⟩
    exact expand_escape fun c hc => notMem_of_isSlugChar (hchars c hc)
  have haddress : Markdown.Entity.expand ("#" ++ fragment e.slug) = "#" ++ fragment e.slug := by
    apply expand_of_notMem
    rw [List.mem_append, not_or]
    exact ⟨by decide, and_notMem_fragment e.slug⟩
  have hitem : (Reader.mk found .text).feed "\n      <li class=\"toc-" =
      ⟨found, .value { name := "li" } "class" "toc-"⟩ := by rfl
  have hlink (v : Text) : (Reader.mk found (.value { name := "li" } "class" v)).feed
      "\"><a href=\"#" =
        ⟨found ++ [{ name := "li", attributes := [("class", Markdown.Entity.expand v)] }],
          .value { name := "a" } "href" "#"⟩ := by rfl
  have htitle (noted : List StartTag) (v : Text) :
      (Reader.mk noted (.value { name := "a" } "href" v)).feed "\">" =
        ⟨noted ++ [{ name := "a", attributes := [("href", Markdown.Entity.expand v)] }], .text⟩ := by
    rfl
  have hend (noted : List StartTag) :
      (Reader.mk noted .text).feed "</a></li>" = ⟨noted, .text⟩ := by rfl
  unfold contentsLine
  simp only [Reader.feed_append]
  rw [hitem, Reader.feed_value _ _ _ (quote_notMem_escape _), hlink, hclass,
    Reader.feed_value _ _ _ (quote_notMem_fragment _), htitle, haddress,
    Reader.feed_text _ (less_notMem_escape _), hend, List.append_assoc]
  rfl

theorem feed_contents (found : List StartTag) {entries : List Entry}
    (h : ∀ e ∈ entries, ∀ c ∈ e.tag, isSlugChar c) :
    (Reader.mk found .text).feed (entries.flatMap contentsLine) =
      ⟨found ++ entries.flatMap lineTags, .text⟩ := by
  induction entries generalizing found with
  | nil => rw [List.flatMap_nil, List.flatMap_nil, List.append_nil]; rfl
  | cons e entries ih =>
      rw [List.forall_mem_cons] at h
      rw [List.flatMap_cons, Reader.feed_append, feed_contentsLine found h.1, ih _ h.2,
        List.flatMap_cons, List.append_assoc]

/-- The sidebar of a page within its element. -/
def sidebar (title : Text) (entries : List Entry) : Text :=
  "\n    <h1>" ++ escape title ++ "</h1>\n    <ul>" ++ entries.flatMap contentsLine
    ++ "\n    </ul>\n  "

theorem read_sidebar (title : Text) {entries : List Entry}
    (h : ∀ e ∈ entries, ∀ c ∈ e.tag, isSlugChar c) :
    Closed (sidebar title entries) ∧ startTags (sidebar title entries) =
      { name := "h1" } :: { name := "ul" } :: entries.flatMap lineTags := by
  have htitle : ({} : Reader).feed "\n    <h1>" = ⟨[{ name := "h1" }], .text⟩ := by rfl
  have hlist : (Reader.mk [{ name := "h1" }] .text).feed "</h1>\n    <ul>" =
      ⟨[{ name := "h1" }, { name := "ul" }], .text⟩ := by rfl
  have hend (noted : List StartTag) :
      (Reader.mk noted .text).feed "\n    </ul>\n  " = ⟨noted, .text⟩ := by rfl
  apply closed_of_feed
  unfold sidebar
  simp only [Reader.feed_append]
  rw [htitle, Reader.feed_text _ (less_notMem_escape _), hlist, feed_contents _ h, hend]
  rfl

end Sidebar

section Section

end Section

section InFront
variable {anchor : Text}

theorem clear_sidebar (title : Text) {entries : List Entry}
    (h : ∀ e ∈ entries, ∀ c ∈ e.tag, isSlugChar c) : Clear anchor (sidebar title entries) := by
  obtain ⟨hclosed, htags⟩ := read_sidebar title h
  refine .of_nameless ⟨hclosed, ?_⟩
  simp only [htags, List.forall_mem_cons, List.mem_flatMap]
  refine ⟨rfl, rfl, ?_⟩
  rintro tag ⟨e, -, htag⟩
  obtain rfl | rfl : tag = _ ∨ tag = _ := by simpa [lineTags] using htag
  · rfl
  · rfl

end InFront

/-- Neither the sidebar nor what stands around it is in the way of a link. -/
theorem Clear.sidebar {anchor front : Text} (h : Clear anchor front) (title : Text)
    {entries : List Entry} (htags : ∀ e ∈ entries, ∀ c ∈ e.tag, isSlugChar c) :
    Clear anchor (front ++ "<body>\n  <nav class=\"toc\">" ++ Page.sidebar title entries ++
      "</nav>\n  <main>") := by
  have hbody : Clear anchor "<body>\n  <nav class=\"toc\">" := .of_nameless (by decide)
  have hmain : Clear anchor "</nav>\n  <main>" := .of_nameless (by decide)
  exact ((h.append hbody).append (clear_sidebar title htags)).append hmain

end Page

section Files
variable {e : Markdown.Engine} {limit : Int}

/-- The line of a file in the table of contents. -/
def WovenFile.entry (f : WovenFile) : Entry :=
  { title := f.file, slug := f.fileSlug, tag := Tag.file }

variable {ε : Type} {k : Loom ε} {o : WeaveOptions} {sources : List Source} {d : Document}

end Files

open Page

end Marginalia
