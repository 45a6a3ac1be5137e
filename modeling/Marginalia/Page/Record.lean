import Marginalia.Json
import Marginalia.Weave

/-!
# Documents and segments as JSON

The JSON view holds everything that is known of a document. A list that is missing is written as
null; a woven document misses a table of contents only when it is empty.
-/
namespace Marginalia

/-- A file whose list of cards may be missing. -/
structure FileRecord where
  fileSlug : Text
  file : Text
  language : Language
  cards? : Option (List FinishedCard)

/-- A document whose lists may be missing. -/
structure DocumentRecord where
  files? : Option (List FileRecord)
  contents? : Option (List Entry)
  style : Text

def Document.record (d : Document) : DocumentRecord :=
  { files? := some (d.files.map fun f =>
      { fileSlug := f.fileSlug, file := f.file, language := f.language, cards? := some f.cards })
    contents? := if d.contents.isEmpty then none else some d.contents
    style := d.style }

/-- The document of a record, where a missing list is an empty one. -/
def DocumentRecord.document (r : DocumentRecord) : Document :=
  { files := (r.files?.getD []).map fun f =>
      { fileSlug := f.fileSlug, file := f.file, language := f.language, cards := f.cards?.getD [] }
    contents := r.contents?.getD []
    style := r.style }

namespace Json

def ofCard (c : FinishedCard) : Json :=
  .record [("startLine", .number c.startLine), ("code", .text c.code), ("gutter", .text c.gutter),
    ("codeHtml", .text c.codeHtml), ("blockComment", .text c.blockComment),
    ("lineComment", .text c.lineComment), ("blockCommentHtml", .text c.blockCommentHtml),
    ("lineCommentHtml", .text c.lineCommentHtml)]

def ofLanguage (l : Language) : Json := .record [("name", .text l.name), ("lexer", .text l.lexer)]

def ofFile (f : FileRecord) : Json :=
  .record [("fileSlug", .text f.fileSlug), ("file", .text f.file),
    ("language", ofLanguage f.language), ("packs", ofList? ofCard f.cards?)]

def ofEntry (e : Entry) : Json :=
  .record [("title", .text e.title), ("slug", .text e.slug), ("tag", .text e.tag)]

def ofDocument (d : DocumentRecord) : Json :=
  .record [("files", ofList? ofFile d.files?), ("toc", ofList? ofEntry d.contents?),
    ("style", .text d.style)]

/-- A segment, without the source it was made from. -/
def ofSegment (s : Segment) : Json :=
  .record [("kind", .text s.kind.name), ("content", .text s.content), ("line", .number s.line)]

/-- A stream of segments; an empty one counts as missing. -/
def ofSegments (segments : List Segment) : Json :=
  ofList? ofSegment (if segments.isEmpty then none else some segments)

end Json

end Marginalia
