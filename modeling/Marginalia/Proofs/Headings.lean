import Marginalia.Anchor
import Marginalia.Markdown
import Marginalia.Proofs.Outcome

/-!
# Headings and their lines in the table of contents

A document that gets its anchors stays the same document: only the anchors of headings within the
level limit change, wherever the headings are nested. The anchors append one line for each of those
headings to the table of contents, in document order, and the slug of the line is the anchor which
the heading now has.
-/
namespace Marginalia

namespace Markdown

namespace Block

section Unanchored
variable (limit : Int)

mutual

/-- A block without the anchors of its headings within the limit. -/
def unanchored : Block (List Span) → Block (List Span)
  | .heading level anchor special content =>
    .heading level (if (level : Int) ≤ limit then [] else anchor) special content
  | .quote content => .quote (unanchoredAll content)
  | .list style tight items => .list style tight (unanchoredItems items)
  | .paragraph content => .paragraph content
  | .code info literal => .code info literal
  | .markup literal => .markup literal
  | .rule => .rule
  | .table header? groups caption? => .table header? groups caption?
  | .math literal => .math literal

@[inherit_doc unanchored]
def unanchoredAll : List (Block (List Span)) → List (Block (List Span))
  | [] => []
  | b :: bs => unanchored b :: unanchoredAll bs

@[inherit_doc unanchored]
def unanchoredItems :
    List (Bool × List (Block (List Span))) → List (Bool × List (Block (List Span)))
  | [] => []
  | (term, content) :: items => (term, unanchoredAll content) :: unanchoredItems items

end

/-- Documents that differ at most in the anchors of headings within the limit. -/
def Alike (bs bs' : List (Block (List Span))) : Prop :=
  unanchoredAll limit bs = unanchoredAll limit bs'

/-- The headings of a document that lie within the limit. -/
def within (headings : List HeadingInfo) : List HeadingInfo :=
  headings.filter fun h => (h.level : Int) ≤ limit

/-- The titles and tags of the headings within the limit. -/
def labels (headings : List HeadingInfo) : List (Text × Text) :=
  (within limit headings).map fun h => (h.title, Tag.heading h.level)

/-- The lines of the table of contents for headings: one for each heading within the limit. -/
def entriesOf (headings : List HeadingInfo) : List Entry :=
  (within limit headings).map fun h =>
    { title := h.title, slug := h.anchor, tag := Tag.heading h.level }

/-- A heading without its anchor if it lies within the limit. -/
def HeadingInfo.unanchored (h : HeadingInfo) : HeadingInfo :=
  { h with anchor := if (h.level : Int) ≤ limit then [] else h.anchor }

mutual

theorem headings_unanchored : ∀ b, headings (unanchored limit b) =
    (headings b).map (HeadingInfo.unanchored limit)
  | .heading level anchor special content => rfl
  | .quote content => by
      rw [unanchored, headings, headings, headingsOf_unanchoredAll content]
  | .list style tight items => by
      rw [unanchored, headings, headings, headingsOfItems_unanchoredItems items]
  | .paragraph content => rfl
  | .code info literal => rfl
  | .markup literal => rfl
  | .rule => rfl
  | .table header? groups caption? => rfl
  | .math literal => rfl

theorem headingsOf_unanchoredAll : ∀ bs, headingsOf (unanchoredAll limit bs) =
    (headingsOf bs).map (HeadingInfo.unanchored limit)
  | [] => rfl
  | b :: bs => by
      rw [unanchoredAll, headingsOf, headingsOf, headings_unanchored b,
        headingsOf_unanchoredAll bs, List.map_append]

theorem headingsOfItems_unanchoredItems : ∀ items,
    headingsOfItems (unanchoredItems limit items) =
      (headingsOfItems items).map (HeadingInfo.unanchored limit)
  | [] => rfl
  | (term, content) :: items => by
      rw [unanchoredItems, headingsOfItems, headingsOfItems, headingsOf_unanchoredAll content,
        headingsOfItems_unanchoredItems items, List.map_append]

end

variable {limit}

theorem Alike.refl (bs : List (Block (List Span))) : Alike limit bs bs := rfl

theorem Alike.symm {bs bs' : List (Block (List Span))} (h : Alike limit bs bs') :
    Alike limit bs' bs := Eq.symm h

theorem Alike.trans {bs bs' bs'' : List (Block (List Span))} (h : Alike limit bs bs')
    (h' : Alike limit bs' bs'') : Alike limit bs bs'' := Eq.trans h h'

/-- Alike documents have the same headings but for anchors, and those below the limit agree in their
anchors too. -/
theorem Alike.headings_eq {bs bs' : List (Block (List Span))} (h : Alike limit bs bs') :
    (headingsOf bs).map (HeadingInfo.unanchored limit) =
      (headingsOf bs').map (HeadingInfo.unanchored limit) := by
  rw [← headingsOf_unanchoredAll, ← headingsOf_unanchoredAll, h]

theorem Alike.labels_eq {bs bs' : List (Block (List Span))} (h : Alike limit bs bs') :
    labels limit (headingsOf bs) = labels limit (headingsOf bs') := by
  have hlabels : ∀ hs : List HeadingInfo,
      labels limit (hs.map (HeadingInfo.unanchored limit)) = labels limit hs := by
    intro hs
    simp only [labels, within, List.map_map, List.filter_map]
    rfl
  rw [← hlabels, h.headings_eq, hlabels]

theorem entriesOf_labels (hs : List HeadingInfo) :
    (entriesOf limit hs).map (fun e => (e.title, e.tag)) = labels limit hs := by
  rw [entriesOf, List.map_map]
  rfl

theorem entriesOf_append (hs hs' : List HeadingInfo) :
    entriesOf limit (hs ++ hs') = entriesOf limit hs ++ entriesOf limit hs' := by
  simp only [entriesOf, within, List.filter_append, List.map_append]

end Unanchored

section Anchored
variable {ε : Type} {limit : Int} {fileSlug : Text}
  {anchor : Text → Nat → StateT Anchors (Except ε) Text}

/-- Anchors are issued for the headings of a file. -/
def Issues (fileSlug : Text) (anchor : Text → Nat → StateT Anchors (Except ε) Text) : Prop :=
  ∀ title level a, (anchor title level).run a = .ok (a.heading fileSlug title level)

theorem anchored_heading (hanchor : Issues fileSlug anchor) (level : Nat) (old : Text)
    (special : Bool) (content : List Span) (a : Anchors) :
    ∃ b' a', (anchored limit anchor (.heading level old special content)).run a = .ok (b', a') ∧
      unanchored limit b' = unanchored limit (.heading level old special content) ∧
      a'.entries = a.entries ++ entriesOf limit (headings b') := by
  rw [anchored]
  split
  · next hle =>
    have hrun := hanchor (Span.title content) level a
    refine ⟨.heading level (a.heading fileSlug (Span.title content) level).1 special content,
      (a.heading fileSlug (Span.title content) level).2, ?_, ?_, ?_⟩
    · rw [run_bind_of_ok hrun]
      rfl
    · simp only [unanchored, if_pos hle]
    · simp [headings, entriesOf, within, hle, Anchors.heading, Anchors.register, Anchors.enter]
  · next hgt =>
    refine ⟨.heading level old special content, a, rfl, rfl, ?_⟩
    simp [headings, entriesOf, within, hgt]

mutual

theorem anchored_run (hanchor : Issues fileSlug anchor) (a : Anchors) :
    ∀ b, ∃ b' a', (anchored limit anchor b).run a = .ok (b', a') ∧
      unanchored limit b' = unanchored limit b ∧
      a'.entries = a.entries ++ entriesOf limit (headings b')
  | .heading level old special content => anchored_heading hanchor level old special content a
  | .quote content => by
      obtain ⟨bs', a', hrun, halike, hentries⟩ := anchoredAll_run hanchor a content
      refine ⟨.quote bs', a', ?_, ?_, ?_⟩
      · rw [anchored, run_bind_of_ok hrun]
        rfl
      · rw [unanchored, unanchored, halike]
      · rw [hentries, headings]
  | .list style tight items => by
      obtain ⟨items', a', hrun, halike, hentries⟩ := anchoredItems_run hanchor a items
      refine ⟨.list style tight items', a', ?_, ?_, ?_⟩
      · rw [anchored, run_bind_of_ok hrun]
        rfl
      · rw [unanchored, unanchored, halike]
      · rw [hentries, headings]
  | .paragraph content => ⟨.paragraph content, a, rfl, rfl, (List.append_nil _).symm⟩
  | .code info literal => ⟨.code info literal, a, rfl, rfl, (List.append_nil _).symm⟩
  | .markup literal => ⟨.markup literal, a, rfl, rfl, (List.append_nil _).symm⟩
  | .rule => ⟨.rule, a, rfl, rfl, (List.append_nil _).symm⟩
  | .table header? groups caption? =>
      ⟨.table header? groups caption?, a, rfl, rfl, (List.append_nil _).symm⟩
  | .math literal => ⟨.math literal, a, rfl, rfl, (List.append_nil _).symm⟩

theorem anchoredAll_run (hanchor : Issues fileSlug anchor) (a : Anchors) :
    ∀ bs, ∃ bs' a', (anchoredAll limit anchor bs).run a = .ok (bs', a') ∧
      unanchoredAll limit bs' = unanchoredAll limit bs ∧
      a'.entries = a.entries ++ entriesOf limit (headingsOf bs')
  | [] => ⟨[], a, rfl, rfl, (List.append_nil _).symm⟩
  | b :: bs => by
      obtain ⟨b', a', hrun, halike, hentries⟩ := anchored_run hanchor a b
      obtain ⟨bs', a'', hruns, halikes, hentriess⟩ := anchoredAll_run hanchor a' bs
      refine ⟨b' :: bs', a'', ?_, ?_, ?_⟩
      · rw [anchoredAll, run_bind_of_ok hrun, run_bind_of_ok hruns]
        rfl
      · rw [unanchoredAll, unanchoredAll, halike, halikes]
      · rw [hentriess, hentries, headingsOf, entriesOf_append, List.append_assoc]

theorem anchoredItems_run (hanchor : Issues fileSlug anchor) (a : Anchors) :
    ∀ items, ∃ items' a', (anchoredItems limit anchor items).run a = .ok (items', a') ∧
      unanchoredItems limit items' = unanchoredItems limit items ∧
      a'.entries = a.entries ++ entriesOf limit (headingsOfItems items')
  | [] => ⟨[], a, rfl, rfl, (List.append_nil _).symm⟩
  | (term, content) :: items => by
      obtain ⟨content', a', hrun, halike, hentries⟩ := anchoredAll_run hanchor a content
      obtain ⟨items', a'', hruns, halikes, hentriess⟩ := anchoredItems_run hanchor a' items
      refine ⟨(term, content') :: items', a'', ?_, ?_, ?_⟩
      · rw [anchoredItems, run_bind_of_ok hrun, run_bind_of_ok hruns]
        rfl
      · rw [unanchoredItems, unanchoredItems, halike, halikes]
      · rw [hentriess, hentries, headingsOfItems, entriesOf_append, List.append_assoc]

end

end Anchored

end Block

namespace Engine
variable (e : Engine)

/-- The document that a comment means. A blank comment means the empty document. -/
def document (source : Text) : List (Block (List Span)) :=
  if source.isBlank then [] else e.parse source

/-- A document as the HTML of a comment. A blank comment gives nothing. -/
def write (source : Text) (blocks : List (Block (List Span))) : Text :=
  if source.isBlank then [] else e.print blocks

end Engine

/-- What a comment gives when it is rendered with anchors: HTML, and lines of the table of
contents. -/
structure Renders (e : Engine) (limit : Int) (source html : Text) (entries : List Entry) : Prop where
  /-- There is one line for each heading of the comment within the limit, in document order. -/
  listed : entries.map (fun entry => (entry.title, entry.tag)) =
    Block.labels limit (Block.headingsOf (e.document source))
  /-- What is written is the document of the comment, alike but for anchors, and the slugs of the
  lines are the anchors that its headings have when it is handed over to be written. -/
  written : ∃ blocks, Block.Alike limit (e.document source) blocks ∧ html = e.write source blocks ∧
    entries = Block.entriesOf limit (Block.headingsOf blocks)

theorem Renders.of_alike {e : Engine} {limit : Int} {source : Text} {blocks : List (Block (List Span))}
    (h : Block.Alike limit (e.document source) blocks) :
    Renders e limit source (e.write source blocks)
      (Block.entriesOf limit (Block.headingsOf blocks)) where
  listed := by rw [Block.entriesOf_labels, h.labels_eq]
  written := ⟨blocks, h, rfl, rfl⟩

/-- Rendering with anchors always comes through. -/
theorem render_run {ε : Type} (e : Engine) (limit : Int) {fileSlug : Text}
    {anchor : Text → Nat → StateT Anchors (Except ε) Text}
    (hanchor : Block.Issues fileSlug anchor) (source : Text) (a : Anchors) :
    ∃ html a' entries, (e.render limit (some anchor) source).run a = .ok (html, a') ∧
      Renders e limit source html entries ∧ a'.entries = a.entries ++ entries := by
  unfold Engine.render
  split
  · next hblank =>
    have halike : Block.Alike limit (e.document source) [] := by
      rw [Engine.document, if_pos hblank]
      exact .refl []
    have hrenders := Renders.of_alike halike
    rw [Engine.write, if_pos hblank] at hrenders
    exact ⟨[], a, [], rfl, hrenders, (List.append_nil _).symm⟩
  · next hblank =>
    obtain ⟨blocks, a', hrun, halike, hentries⟩ :=
      Block.anchoredAll_run hanchor a (e.parse source)
    have hrenders : Renders e limit source (e.write source blocks) _ := .of_alike (by
      rw [Engine.document, if_neg hblank]
      exact halike.symm)
    rw [Engine.write, if_neg hblank] at hrenders
    refine ⟨e.print blocks, a', _, ?_, hrenders, hentries⟩
    rw [run_bind_of_ok hrun]
    rfl

end Markdown

end Marginalia
