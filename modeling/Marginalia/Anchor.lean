import Marginalia.Text.Case
import Marginalia.Text.Percent
import Marginalia.Text.Space

/-!
# Anchors and the table of contents

Each file and each heading of a document gets an anchor: a slug that no other place of the document
has. A slug is made from a title; if it has been issued before, the least number that makes it new
is appended. Files and headings enter the table of contents in the order in which they are met.
-/
namespace Marginalia

/-- A title in the form in which it can stand in a link: lower case, words joined by hyphens, and
every byte outside the plain characters percent-encoded. -/
def slug (title : Text) : Text :=
  Percent.escape Percent.upperDigits Percent.isSlugPlain
    (Utf8.encode (Text.join "-" (Text.words (Text.lower title))))

namespace Tag

def file : Text := "file"

def heading (level : Int) : Text := "h" ++ Text.ofInt level

/-- The level that a heading tag names, zero for any other tag. -/
def level (tag : Text) : Int :=
  match tag with
  | 'h' :: number => (Text.toInt? number).getD 0
  | _ => 0

end Tag

/-- A line of the table of contents. -/
structure Entry where
  title : Text
  slug : Text
  tag : Text
deriving DecidableEq, Repr

/-- The anchors issued so far and the table of contents. -/
structure Anchors where
  issued : List Text := []
  entries : List Entry := []
deriving Repr

namespace Anchors

/-- A slug with a number appended. -/
def variant (base : Text) (k : Nat) : Text := base ++ "-" ++ Text.ofNat k

/-- The slug to issue for a base: the base itself, or else its first variant that is not issued. As
many variants as there are issued slugs, and one more, cannot all be taken. -/
def fresh (issued : List Text) (base : Text) : Text :=
  if issued.contains base then
    let k := (List.range (issued.length + 1)).find? fun k => !issued.contains (variant base k)
    variant base (k.getD issued.length)
  else base

/-- Issues a slug for a base. -/
def register (a : Anchors) (base : Text) : Text × Anchors :=
  let s := fresh a.issued base
  (s, { a with issued := s :: a.issued })

/-- Issues a slug for a title without entering it into the table of contents. -/
def reserve (a : Anchors) (title : Text) : Text × Anchors := a.register (slug title)

def enter (a : Anchors) (e : Entry) : Anchors := { a with entries := a.entries ++ [e] }

def file (a : Anchors) (name : Text) : Text × Anchors :=
  let (s, b) := a.reserve name
  (s, b.enter { title := name, slug := s, tag := Tag.file })

def heading (a : Anchors) (fileSlug title : Text) (level : Int) : Text × Anchors :=
  let (s, b) := a.register (fileSlug ++ "-" ++ slug title)
  (s, b.enter { title := title, slug := s, tag := Tag.heading level })

end Anchors

end Marginalia
