import Marginalia.Reference
import Marginalia.Weave

/-!
# Reading sources

A source is read from its file or its address and has to be text: UTF-8 without null characters near
its beginning. A byte order mark is dropped. Sources are given in the order in which they were asked
for, and the first that cannot be read is reported.
-/
namespace Marginalia

structure Response where
  status : Int
  body : Bytes
  /-- Why the body cannot be received to its end, if so. -/
  broken? : Option Text := none
deriving DecidableEq, Repr

/-- What addresses answer, or why they do not. -/
abbrev Web := Text → Except Text Response

inductive ReadError where
  | unreadable (path : Text) (cause : FileError)
  | notText (location : Text)
  | unreachable (url cause : Text)
  | refused (url : Text) (status : Int)
  | broken (url cause : Text)
deriving DecidableEq, Repr

instance : Diagnosable ReadError where
  diagnose
    | .unreadable path cause =>
      { code := "READ_FAILED"
        message := "reading " ++ path ++ ": " ++ cause.message
        facts := [("path", .text path)] }
    | .notText location =>
      { code := "READ_FAILED"
        message := location ++ " is not a text file"
        hint := "Only UTF-8 text sources can be documented"
        facts := [("input", .text location)] }
    | .unreachable url cause =>
      { code := "DOWNLOAD_FAILED"
        message := "downloading " ++ url ++ ": Get " ++ Quoted.quote url ++ ": " ++ cause
        facts := [("url", .text url)] }
    | .refused url status =>
      { code := "DOWNLOAD_FAILED"
        message := url ++ " returned non-success status " ++ Text.ofInt status
        facts := [("url", .text url), ("status", .number status)] }
    | .broken url cause =>
      { code := "DOWNLOAD_FAILED"
        message := "reading response body: " ++ cause
        facts := [("url", .text url)] }

namespace Reading

def byteOrderMark : Bytes := [0xEF, 0xBB, 0xBF]

def dropMark (content : Bytes) : Bytes :=
  if content.take 3 = byteOrderMark then content.drop 3 else content

/-- The number of bytes in which a null character shows that content is no text. -/
def inspected : Nat := 512

def text? (content : Bytes) : Option Text :=
  let content := dropMark content
  if (content.take inspected).contains 0 then none else Utf8.decode? content

/-- Asks an address. Its answer counts if the status is one of success. -/
def ask (web : Web) (url : Text) : Except ReadError Response :=
  match web url with
  | .error cause => .error (.unreachable url cause)
  | .ok r => if 200 ≤ r.status ∧ r.status < 300 then .ok r else .error (.refused url r.status)

def receive (url : Text) (r : Response) : Except ReadError Bytes :=
  match r.broken? with
  | none => .ok r.body
  | some cause => .error (.broken url cause)

def download (web : Web) (url : Text) : Except ReadError Bytes := do receive url (← ask web url)

def fetch (w : Workspace) (web : Web) (r : Reference) : Except ReadError Bytes :=
  match r.origin with
  | .url => download web r.location
  | .file => (w.read r.location).mapError (.unreadable r.location)

def decode (r : Reference) (content : Bytes) : Except ReadError Source :=
  match text? content with
  | some content => .ok { file := r.label, content }
  | none => .error (.notText r.location)

def readOne (w : Workspace) (web : Web) (r : Reference) : Except ReadError Source := do
  decode r (← fetch w web r)

def readAll (w : Workspace) (web : Web) (refs : List Reference) : Except ReadError (List Source) :=
  refs.mapM (readOne w web)

end Reading

end Marginalia
