import Marginalia.Weave

/-!
# The code view

The code view lists the titles of the table of contents and then, behind a banner with its name, the
code of each file. Cards without code are left out.
-/
namespace Marginalia.Listing

/-- The rule above and below the name of a file. -/
def rule : Text := List.replicate 16 '='

def card (c : FinishedCard) : List Text := if c.hasCode then [c.code, "\n"] else []

/-- A file with its banner. -/
def file (f : WovenFile) : List Text :=
  [rule, "\n", f.file, "\n", rule, "\n"] ++ f.cards.flatMap card

def titleLine (e : Entry) : List Text := [e.title, "\n"]

/-- The code view of a document, in the pieces in which it is written. -/
def pieces (d : Document) : List Text :=
  d.contents.flatMap titleLine ++ ["\n".toList] ++ d.files.flatMap file

end Marginalia.Listing
