import Marginalia.Command.Line
import Marginalia.Grid
import Marginalia.Page.Html
import Marginalia.Page.Listing
import Marginalia.Page.Record
import Marginalia.Page.View
import Marginalia.Reading
import Marginalia.Report
import Marginalia.Search
import Marginalia.Settings.Load
import Marginalia.Settings.Starter
import Marginalia.Workspace.Write

/-!
# Deeds

A request is worked out without touching anything. What comes of it is a deed: an output to show, a
report to tell or a file to write. Whatever can go wrong with settings, arguments, sources or documents
goes wrong here, before there is anything to undo.
-/
namespace Marginalia

inductive RunError where
  | line (e : LineError)
  | noSources
  | oneSource (count : Nat)
  | settings (e : LoadError)
  | resolve (e : ResolveError)
  | read (e : ReadError)
  | weave (e : WeaveError)
  /-- The code of a file was not colored. -/
  | coloring (file : Text) (e : ColoringError)
  /-- The style sheet of a page was not made. -/
  | styling (e : ColoringError)
  | render (e : RenderError)
  /-- A finished document was not taken by the output. -/
  | output (cause : Text)
  | write (e : WriteError)
  | standing (path : Text)
  | unreachable (path : Text) (trouble : Trouble)
deriving DecidableEq, Repr

instance : Diagnosable RunError where
  diagnose
    | .line e => diagnose e
    | .noSources =>
      { code := "INVALID_ARGS"
        message := "no input files given"
        hint := "Usage: solcco [flags] file1 [... fileN]" }
    | .oneSource count =>
      { code := "INVALID_ARGS"
        message := "expected 1 argument, got " ++ Text.ofNat count
        hint := "Usage: solcco segments <file>" }
    | .settings e => diagnose e
    | .resolve e => diagnose e
    | .read e => diagnose e
    | .weave e => diagnose e
    | .coloring file e => diagnose (WeaveFailure.coloring file e)
    | .styling e => diagnose e
    | .render e => diagnose e
    | .output cause => { message := cause }
    | .write e => diagnose e
    | .standing path =>
      { code := "WRITE_FAILED"
        message := path ++ " already exists"
        hint := "Pass --force to overwrite it"
        facts := [("path", .text path)] }
    | .unreachable path trouble =>
      { code := "WRITE_FAILED"
        message := "checking " ++ path ++ ": " ++ FileError.message ⟨"stat", [path], trouble⟩
        facts := [("path", .text path)] }

def RunError.ofWeaving : WeaveFailure ColoringError → RunError
  | .scan e => .weave e
  | .coloring file e => .coloring file e

inductive Output where
  /-- A view that is rendered as it is put out. -/
  | view (view : View) (pieces : List Text)
  /-- A document that was rendered before. -/
  | document (content : Bytes)
  /-- A table. That it is refused goes unnoticed. -/
  | table (drawn : Text)
deriving DecidableEq, Repr

/-- What a request comes to. -/
inductive Deed where
  | nothing
  | print (output : Output)
  | tell (report : Report)
  /-- Writing a file, which is reported once it is done. -/
  | write (path : Text) (content : Bytes) (report : Report)
deriving DecidableEq, Repr

namespace Choices

def override (c : Choices) (s : Settings) : Settings :=
  { s with
    level := c.level?.getD s.level
    style := c.style?.getD s.style
    title := c.title?.getD s.title
    parallel := c.parallel?.getD s.parallel }

/-- The settings of a run, given for which names there is a lexer. -/
def settings (c : Choices) (knows : Text → Bool) (w : Workspace) : Except LoadError Settings := do
  let s := c.override (← Settings.load knows w c.config)
  (s.check knows).mapError .invalid
  return s

end Choices

namespace Deed

/-- The sources that arguments stand for. -/
def sources (w : Workspace) (web : Web) (s : Settings) (args : List Text) :
    Except RunError (List Source) := do
  if args.isEmpty then throw .noSources
  let refs ← (Reference.resolve w s.exclude args).mapError .resolve
  (Reading.readAll w web refs).mapError .read

def options (s : Settings) : WeaveOptions where
  maxLevel := s.level
  style := s.style
  registry := Registry.ofExtra s.languages

def woven (w : Workspace) (web : Web) (k : Loom ColoringError) (s : Settings)
    (args : List Text) : Except RunError Document × List Event :=
  match sources w web s args with
  | .error e => (.error e, [])
  | .ok sources =>
    let (result, events) := weaveWith k (options s) sources
    (result.mapError .ofWeaving, events)

/-- The place of a document, empty for the output of the program. -/
def destination (s : Settings) (d : Delivery) : Text :=
  if !d.file.isEmpty then d.file else if d.write then s.output else []

def written (k : Loom ColoringError) (s : Settings) (d : Delivery) (doc : Document) :
    Except RunError Bytes := do
  if d.json then (View.json.buffered [(Json.ofDocument doc.record).render]).mapError .render
  else
    let sheet ← (k.sheet doc.style).mapError .styling
    (View.page.buffered [Page.render s.title doc sheet]).mapError .render

/-- What a document comes to. -/
def deliver (k : Loom ColoringError) (s : Settings) (d : Delivery) (doc : Document) :
    Except RunError Deed := do
  if d.code then return .print (.view .code (Listing.pieces doc))
  else if d.noop then return .tell (.processed doc.files.length)
  else
    let content ← written k s d doc
    let path := destination s d
    if path.isEmpty then return .print (.document content)
    else return .write path content (.wrote path doc.files.length)

def document (w : Workspace) (web : Web) (k : Loom ColoringError) (c : Choices) (d : Delivery)
    (args : List Text) : Except RunError Deed × List Event :=
  match c.settings k.knows w with
  | .error e => (.error (.settings e), [])
  | .ok s =>
    let (result, events) := woven w web k s args
    (result.bind (deliver k s d), events)

def contents (w : Workspace) (web : Web) (k : Loom ColoringError) (c : Choices) (query : Text)
    (json : Bool) (args : List Text) : Except RunError Deed := do
  let s ← (c.settings k.knows w).mapError .settings
  let doc ← (woven w web k s args).1
  let entries := Search.filter doc.contents query
  if json then return .print (.view .json [(Json.ofList Json.ofEntry entries).render])
  else return .print (.table (Grid.ofEntries entries).render)

def segments (w : Workspace) (web : Web) (knows : Text → Bool) (c : Choices) (json : Bool)
    (args : List Text) : Except RunError Deed := do
  if args.length ≠ 1 then throw (.oneSource args.length)
  let s ← (c.settings knows w).mapError .settings
  match ← sources w web s args with
  | [] => throw .noSources
  | source :: _ =>
    let (_, segments) ← (Weave.scan (Registry.ofExtra s.languages) source).mapError .weave
    if json then return .print (.view .json [(Json.ofSegments segments).render])
    else return .print (.table (Grid.ofSegments segments).render)

/-- The file that a new project begins with. -/
def starterPath : Text := "solcco.toml"

def start (w : Workspace) (force : Bool) : Except RunError Deed :=
  let deed : Deed := .write starterPath (Utf8.encode Settings.starter) (.created starterPath)
  match w.stat starterPath with
  | .ok _ => if force then .ok deed else .error (.standing starterPath)
  | .error .missing => .ok deed
  | .error t => .error (.unreachable starterPath t)

end Deed

namespace Request

/-- What a request comes to, and the files that were woven on the way. -/
def workOut (w : Workspace) (web : Web) (k : Loom ColoringError) :
    Request → Except RunError Deed × List Event
  | .document c d args => Deed.document w web k c d args
  | .contents c query json args => (Deed.contents w web k c query json args, [])
  | .segments c json args => (Deed.segments w web k.knows c json args, [])
  | .start force => (Deed.start w force, [])
  | .help => (.ok .nothing, [])

/-- Whether a request asks for a line about each file. -/
def verbose : Request → Bool
  | .document _ d _ => d.verbose
  | _ => false

end Request

end Marginalia
