import Marginalia.Anchor
import Marginalia.Card.Finished
import Marginalia.Highlight
import Marginalia.Language
import Marginalia.Markdown
import Marginalia.Segment.Scanner

/-!
# Weaving documents

A document is woven from annotated source files in order: each file gets an anchor, is scanned into
segments, gathered into cards and finished. All files share one set of anchors and one table of
contents, and the pens that color their code. The first file that fails ends the run, and no document
is made.
-/
namespace Marginalia

/-- A source file: the name that labels it and its text. -/
structure Source where
  file : Text
  content : Text
deriving DecidableEq, Repr

structure Event where
  file : Text
  language : Language
  segments : Nat
  cards : Nat
deriving DecidableEq, Repr

/-- Whoever does the work on comments and on code. -/
structure Loom (ε : Type) extends Colorist ε where
  markdown : Markdown.Engine

/-- The loom of this library, without color. -/
def Loom.plain {ε : Type} : Loom ε where
  toColorist := .plain
  markdown := .standard

structure WeaveOptions where
  /-- The deepest heading level that enters the table of contents; the default one if not
  positive. -/
  maxLevel : Int := 0
  /-- The style of code; the default one if empty. -/
  style : Text := []
  registry : Registry := Registry.defaults

structure WovenFile where
  fileSlug : Text
  file : Text
  language : Language
  cards : List FinishedCard
deriving DecidableEq, Repr

structure Document where
  files : List WovenFile
  contents : List Entry
  style : Text
deriving DecidableEq, Repr

inductive WeaveError where
  | unsupported (e : UnsupportedError)
  | parse (e : ParseError)
deriving DecidableEq, Repr

instance : Diagnosable WeaveError where
  diagnose
    | .unsupported e => diagnose e
    | .parse e => diagnose e

/-- Why a document cannot be woven: a file cannot be scanned, or its code cannot be colored. -/
inductive WeaveFailure (ε : Type) where
  | scan (e : WeaveError)
  | coloring (file : Text) (e : ε)
deriving DecidableEq, Repr

instance {ε : Type} [Diagnosable ε] : Diagnosable (WeaveFailure ε) where
  diagnose
    | .scan e => diagnose e
    | .coloring file e =>
      let d := (diagnose e).whileDoing ("rendering " ++ file)
      { d with facts := ("file", .text file) :: d.facts }

namespace Weave

variable {ε : Type}

def defaultMaxLevel : Int := 2

def levelOf (o : WeaveOptions) : Int := if o.maxLevel ≤ 0 then defaultMaxLevel else o.maxLevel

def styleOf (o : WeaveOptions) : Text := if o.style.isEmpty then Highlight.defaultStyle else o.style

def scan (registry : Registry) (s : Source) : Except WeaveError (Language × List Segment) := do
  let language ← (registry.forFile s.file).mapError .unsupported
  let segments ← (Segment.scan s.file s.content).mapError .parse
  return (language, segments)

/-- What the files of a run share. -/
structure Desk (ε : Type) where
  anchors : Anchors := {}
  /-- The pens made so far, each under the name of its lexer. -/
  pens : List (Text × Pen ε) := []

/-- The pen for a lexer. One that was made before is used again. -/
def Desk.pen (d : Desk ε) (k : Loom ε) (style lexer : Text) : Pen ε × Desk ε :=
  match d.pens.lookup lexer with
  | some pen => (pen, d)
  | none => (k.pen lexer style, { d with pens := (lexer, k.pen lexer style) :: d.pens })

/-- Renders the comments of a file, with anchors for its headings, and colors its code. -/
def press (e : Markdown.Engine) (maxLevel : Int) (fileSlug : Text) (pen : Pen ε) :
    Press (StateT Anchors (Except ε)) where
  render := e.render maxLevel (some fun title level a => .ok (a.heading fileSlug title level))
  highlight code := liftM (pen code)

def weaveFile (k : Loom ε) (o : WeaveOptions) (d : Desk ε) (s : Source) :
    Except (WeaveFailure ε) (WovenFile × Event × Desk ε) := do
  let (fileSlug, a) := d.anchors.file s.file
  let (language, segments) ← (scan o.registry s).mapError .scan
  let (pen, d) := d.pen k (styleOf o) language.lexer
  let work := Card.finishAll (press k.markdown (levelOf o) fileSlug pen) (Card.gather segments)
  let (cards, anchors) ← (work.run a).mapError (.coloring s.file)
  return ({ fileSlug, file := s.file, language, cards },
    { file := s.file, language, segments := segments.length, cards := cards.length },
    { d with anchors })

/-- Weaves files in order. The events tell which files were woven. -/
def weaveFrom (k : Loom ε) (o : WeaveOptions) (d : Desk ε) :
    List Source → Except (WeaveFailure ε) (List WovenFile × Desk ε) × List Event
  | [] => (.ok ([], d), [])
  | s :: rest =>
    match weaveFile k o d s with
    | .error e => (.error e, [])
    | .ok (file, event, d) =>
      let (result, events) := weaveFrom k o d rest
      (result.map fun (files, d) => (file :: files, d), event :: events)

end Weave

def weaveWith {ε : Type} (k : Loom ε) (o : WeaveOptions) (sources : List Source) :
    Except (WeaveFailure ε) Document × List Event :=
  let (result, events) := Weave.weaveFrom k o {} sources
  (result.map fun (files, d) =>
    { files, contents := d.anchors.entries, style := Weave.styleOf o }, events)

/-- Weaves a document from source files without color. -/
def weave (o : WeaveOptions) (sources : List Source) : Except WeaveError Document × List Event :=
  let (result, events) := weaveWith (Loom.plain : Loom Empty) o sources
  (result.mapError fun | .scan e => e, events)

end Marginalia
