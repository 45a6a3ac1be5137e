import Marginalia.Proofs.Delivery

/-!
# What a run may change

A request comes to one deed, and only the requests for a document with a destination and for a new
project come to one that writes a file. Whatever fails before the deed is done has touched nothing, and
the deed itself is done or fails without a trace but for directories. So a run changes its own target
and nothing else. A run that fails changes no file, and it has put nothing out unless it was the output
that failed.
-/
namespace Marginalia

open Workspace (DrawsBeside Readied Written)

/-- The settings of a run: what is loaded, with the choices of the command line in its place. -/
def Choices.Sets (c : Choices) (h : Host) (s : Settings) : Prop :=
  ∃ loaded, Settings.load h.loom.knows h.workspace c.config = .ok loaded ∧
    s.check h.loom.knows = .ok () ∧
    s = { loaded with
      level := c.level?.getD loaded.level
      style := c.style?.getD loaded.style
      title := c.title?.getD loaded.title
      parallel := c.parallel?.getD loaded.parallel }

/-- A document is woven from all sources that some arguments stand for. -/
def Settings.Weaves (s : Settings) (h : Host) (args : List Text) (doc : Document) : Prop :=
  args ≠ [] ∧ ∃ refs sources, Reference.resolve h.workspace s.exclude args = .ok refs ∧
    Reading.readAll h.workspace h.web refs = .ok sources ∧
    (weaveWith h.loom
      { maxLevel := s.level, style := s.style, registry := Registry.ofExtra s.languages }
      sources).1 = .ok doc

namespace Delivery

/-- Where a document goes: to the file that was named, else to that of the settings if it is to be
written. The output has the empty path. -/
inductive Destined (s : Settings) (d : Delivery) : Text → Prop
  | named : d.file ≠ [] → Destined s d d.file
  | configured : d.file = [] → d.write = true → Destined s d s.output
  | shown : d.file = [] → d.write = false → Destined s d []

/-- The content in which a document is given. -/
inductive Produces (h : Host) (s : Settings) (d : Delivery) (doc : Document) : Bytes → Prop
  | json : d.json = true → Produces h s d doc (Utf8.encode (Json.ofDocument doc.record).render)
  | page {sheet : Text} : d.json = false → h.loom.sheet doc.style = .ok sheet →
      Produces h s d doc (Utf8.encode (Page.render s.title doc sheet))

/-- The deed to which a document comes. -/
inductive Asks (h : Host) (s : Settings) (d : Delivery) (doc : Document) : Deed → Prop
  | code : d.code = true → Asks h s d doc (.print (.view .code (Listing.pieces doc)))
  | noop : d.code = false → d.noop = true → Asks h s d doc (.tell (.processed doc.files.length))
  | shown {content : Bytes} : d.code = false → d.noop = false → d.Destined s [] →
      d.Produces h s doc content → Asks h s d doc (.print (.document content))
  | written {path : Text} {content : Bytes} : d.code = false → d.noop = false →
      d.Destined s path → path ≠ [] → d.Produces h s doc content →
      Asks h s d doc (.write path content (.wrote path doc.files.length))

end Delivery

namespace Deed
variable {h : Host} {c : Choices} {s : Settings} {d : Delivery} {doc : Document} {deed : Deed}

end Deed

namespace Request

/-- The deed to which a request comes. -/
inductive Asks (h : Host) : Request → Deed → Prop
  | document {c : Choices} {d : Delivery} {args : List Text} {s : Settings} {doc : Document}
      {deed : Deed} : c.Sets h s → s.Weaves h args doc → d.Asks h s doc deed →
      Asks h (.document c d args) deed
  | contents {c : Choices} {query : Text} {json : Bool} {args : List Text} (output : Output) :
      Asks h (.contents c query json args) (.print output)
  | segments {c : Choices} {json : Bool} {args : List Text} (output : Output) :
      Asks h (.segments c json args) (.print output)
  | start {force : Bool} : force = true ∨ h.workspace.stat Deed.starterPath = .error .missing →
      Asks h (.start force) (.write Deed.starterPath (Utf8.encode Settings.starter)
        (.created Deed.starterPath))
  | help : Asks h .help .nothing

variable {h : Host} {request : Request} {deed : Deed}

end Request

section Run
variable {h : Host}

end Run

example :
    let nodes : List (Location × Node) := [([Deed.starterPath], .file [35])]
    let host : Host :=
      { workspace := { nodes }, web := fun _ => .error []
        storage := { refuse := fun step _ => if step = .replace then some .invalid else none } }
    (run host ["init", "--force"]).workspace.nodes = nodes := by
  decide +kernel

end Marginalia
