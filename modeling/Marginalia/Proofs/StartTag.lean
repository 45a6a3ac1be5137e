import Marginalia.Markdown.Entity
import Marginalia.Proofs.Markup

/-!
# Start tags of a page

A reader goes over markup character by character and notes the start tags it meets, each with its
attributes. The values of attributes stand in quotation marks, and the entities in them are replaced
by what they mean. What was escaped for an attribute is read back, unless it had a NUL.
-/
namespace Marginalia.Page

/-- A start tag: its name, and its attributes with their values. -/
structure StartTag where
  name : Text
  attributes : List (Text × Text) := []
deriving DecidableEq, Repr

namespace StartTag

/-- The tag with one more attribute. -/
def extend (tag : StartTag) (name value : Text) : StartTag :=
  { tag with attributes := tag.attributes ++ [(name, value)] }

/-- The value of the first attribute of a name. -/
def attribute? (tag : StartTag) (name : Text) : Option Text := tag.attributes.lookup name

end StartTag

/-- Where a reader of markup stands. -/
inductive Place where
  | text
  | opening
  | name (name : Text)
  | tag (tag : StartTag)
  | attribute (tag : StartTag) (name : Text)
  | equals (tag : StartTag) (name : Text)
  | value (tag : StartTag) (name value : Text)
  /-- Within an end tag, a declaration or a tag that is not read. -/
  | other
deriving DecidableEq, Repr

/-- A reader of markup: the start tags it has met, and where it stands. -/
structure Reader where
  found : List StartTag := []
  place : Place := .text
deriving DecidableEq, Repr

namespace Reader

/-- The reader at another place. -/
def goTo (r : Reader) (place : Place) : Reader := { r with place }

/-- The reader behind a start tag. -/
def note (r : Reader) (tag : StartTag) : Reader := { found := r.found ++ [tag], place := .text }

/-- The reader behind one more character. -/
def step (r : Reader) (c : Char) : Reader :=
  match r.place with
  | .text => if c = '<' then r.goTo .opening else r
  | .opening =>
    if c.isAlpha then r.goTo (.name [c])
    else if c = '/' ∨ c = '!' then r.goTo .other
    else r.goTo .text
  | .name name =>
    if c = '>' then r.note { name }
    else if c.isWhitespace then r.goTo (.tag { name })
    else r.goTo (.name (name ++ [c]))
  | .tag tag =>
    if c = '>' then r.note tag
    else if c.isWhitespace then r
    else r.goTo (.attribute tag [c])
  | .attribute tag name =>
    if c = '=' then r.goTo (.equals tag name)
    else if c = '>' then r.note (tag.extend name [])
    else if c.isWhitespace then r.goTo (.tag (tag.extend name []))
    else r.goTo (.attribute tag (name ++ [c]))
  | .equals tag name => if c = '"' then r.goTo (.value tag name []) else r.goTo .other
  | .value tag name value =>
    if c = '"' then r.goTo (.tag (tag.extend name (Markdown.Entity.expand value)))
    else r.goTo (.value tag name (value ++ [c]))
  | .other => if c = '>' then r.goTo .text else r

/-- The reader behind a text. -/
def feed (r : Reader) (t : Text) : Reader := t.foldl step r

end Reader

/-- The start tags of markup, in order. -/
def startTags (markup : Text) : List StartTag := (({} : Reader).feed markup).found

namespace Reader

section Feed
variable (found : List StartTag) (tag : StartTag) (name : Text)

theorem feed_append (r : Reader) (t u : Text) : r.feed (t ++ u) = (r.feed t).feed u :=
  List.foldl_append

theorem feed_cons (r : Reader) (c : Char) (t : Text) : r.feed (c :: t) = (r.step c).feed t := rfl

/-- Text that opens no tag is passed over. -/
theorem feed_text {t : Text} (h : '<' ∉ t) : (Reader.mk found .text).feed t = ⟨found, .text⟩ := by
  induction t with
  | nil => rfl
  | cons c t ih =>
      rw [List.mem_cons, not_or] at h
      have hstep : (Reader.mk found .text).step c = ⟨found, .text⟩ := if_neg (Ne.symm h.1)
      rw [feed_cons, hstep, ih h.2]

/-- A value is read up to its quotation mark. -/
theorem feed_value {v : Text} (h : '"' ∉ v) (w : Text) :
    (Reader.mk found (.value tag name w)).feed v = ⟨found, .value tag name (w ++ v)⟩ := by
  induction v generalizing w with
  | nil => rw [List.append_nil]; rfl
  | cons c v ih =>
      rw [List.mem_cons, not_or] at h
      have hstep : (Reader.mk found (.value tag name w)).step c =
          ⟨found, .value tag name (w ++ [c])⟩ := if_neg (Ne.symm h.1)
      rw [feed_cons, hstep, ih h.2, List.append_assoc, List.singleton_append]

/-- What a reader met before makes no difference to what it meets. -/
theorem step_prepend (r : Reader) (c : Char) :
    (Reader.mk (found ++ r.found) r.place).step c =
      ⟨found ++ (r.step c).found, (r.step c).place⟩ := by
  unfold step goTo note
  cases hplace : r.place <;> dsimp only <;> split_ifs <;> simp [hplace]

theorem feed_prepend (r : Reader) (t : Text) :
    (Reader.mk (found ++ r.found) r.place).feed t =
      ⟨found ++ (r.feed t).found, (r.feed t).place⟩ := by
  induction t generalizing r with
  | nil => rfl
  | cons c t ih => rw [feed_cons, step_prepend, ih, feed_cons]

end Feed

end Reader

section Closed

/-- No tag is open behind a piece of markup. -/
def Closed (markup : Text) : Prop := (({} : Reader).feed markup).place = .text

instance (markup : Text) : Decidable (Closed markup) :=
  inferInstanceAs (Decidable ((({} : Reader).feed markup).place = .text))

theorem Closed.feed {t : Text} (h : Closed t) (found : List StartTag) :
    (Reader.mk found .text).feed t = ⟨found ++ startTags t, .text⟩ := by
  have hfeed := Reader.feed_prepend found {} t
  rw [List.append_nil] at hfeed
  rw [hfeed, h]
  rfl

theorem closed_of_feed {t : Text} {tags : List StartTag}
    (h : ({} : Reader).feed t = ⟨tags, .text⟩) : Closed t ∧ startTags t = tags :=
  ⟨congrArg Reader.place h, congrArg Reader.found h⟩

theorem startTags_append {t : Text} (h : Closed t) (u : Text) :
    startTags (t ++ u) = startTags t ++ startTags u := by
  have htags := Reader.feed_prepend (startTags t) {} u
  rw [List.append_nil] at htags
  rw [startTags, Reader.feed_append, h.feed [], List.nil_append, htags]
  rfl

theorem Closed.append {t u : Text} (ht : Closed t) (hu : Closed u) : Closed (t ++ u) := by
  rw [Closed, Reader.feed_append, ht.feed [], hu.feed]

end Closed

section Clear

/-- Markup that is not in the way of a link: no tag is open behind it, and no element of it has the
anchor as its identifier. -/
structure Clear (anchor markup : Text) : Prop where
  closed : Closed markup
  free : ∀ tag ∈ startTags markup, tag.attribute? "id" ≠ some anchor

variable {anchor : Text}

theorem Clear.append {t u : Text} (ht : Clear anchor t) (hu : Clear anchor u) :
    Clear anchor (t ++ u) where
  closed := ht.closed.append hu.closed
  free := by
    rw [startTags_append ht.closed, List.forall_mem_append]
    exact ⟨ht.free, hu.free⟩

theorem Clear.flatMap {α : Type} {f : α → Text} {l : List α} (h : ∀ a ∈ l, Clear anchor (f a)) :
    Clear anchor (l.flatMap f) := by
  induction l with
  | nil => exact ⟨rfl, nofun⟩
  | cons a l ih =>
      rw [List.forall_mem_cons] at h
      rw [List.flatMap_cons]
      exact h.1.append (ih h.2)

/-- Markup without identifiers is in the way of no link. -/
theorem Clear.of_nameless {t : Text}
    (h : Closed t ∧ ∀ tag ∈ startTags t, tag.attribute? "id" = none) : Clear anchor t where
  closed := h.1
  free tag htag := by
    rw [h.2 tag htag]
    nofun

end Clear

section Escaped

theorem notMem_of_marks {t : Text} {c : Char} (h : marks t = []) (hc : isMark c) : c ∉ t := by
  intro hmem
  have hmark : c ∈ marks t := List.mem_filter.mpr ⟨hmem, hc⟩
  rw [h] at hmark
  exact List.not_mem_nil hmark

open Markdown.Entity

theorem expand_cons {c : Char} (h : c ≠ '&') (t : Text) : expand (c :: t) = c :: expand t := by
  rw [expand]
  simp only [if_neg h]

theorem expand_entity {t ds : Text} {n : Nat} (h : read? t = some (ds, n)) :
    expand ('&' :: t) = ds ++ expand (t.drop n) := by
  rw [expand]
  simp only [if_true, h]

theorem expand_of_notMem {t : Text} (h : '&' ∉ t) : expand t = t := by
  induction t with
  | nil => exact expand.eq_1
  | cons c t ih =>
      rw [List.mem_cons, not_or] at h
      rw [expand_cons (Ne.symm h.1), ih h.2]

theorem expand_escapeChar {c : Char} (h : c ∉ ("\x00&<>" : Text)) (t : Text) :
    expand (escapeChar c ++ t) = c :: expand t := by
  have hnul : c ≠ '\x00' := fun hc => h (hc ▸ by decide)
  have hand : c ≠ '&' := fun hc => h (hc ▸ by decide)
  have hless : c ≠ '<' := fun hc => h (hc ▸ by decide)
  have hgreater : c ≠ '>' := fun hc => h (hc ▸ by decide)
  unfold escapeChar
  rw [if_neg hnul]
  -- What is left of the written forms are numbers, which are read without the table of names.
  split_ifs with hquote hapostrophe hplus
  · subst hquote
    exact expand_entity (show read? ("#34;" ++ t) = some (_, 4) from rfl)
  · subst hapostrophe
    exact expand_entity (show read? ("#39;" ++ t) = some (_, 4) from rfl)
  · subst hplus
    exact expand_entity (show read? ("#43;" ++ t) = some (_, 4) from rfl)
  · exact expand_cons hand t

/-- What was escaped is read back, if none of its characters has a written form with a name. -/
theorem expand_escape {t : Text} (h : ∀ c ∈ t, c ∉ ("\x00&<>" : Text)) :
    expand (escape t) = t := by
  induction t with
  | nil => exact expand.eq_1
  | cons c t ih =>
      rw [List.forall_mem_cons] at h
      rw [escape, List.flatMap_cons, expand_escapeChar h.1, ← escape, ih h.2]

end Escaped

end Marginalia.Page
