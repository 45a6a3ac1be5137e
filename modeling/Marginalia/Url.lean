import Marginalia.Path
import Marginalia.Text.Percent

/-!
# Addresses

Of an address only its path is used, but an address that is malformed anywhere has none. This module
checks the parts of an address: scheme, user, host, port, path and fragment.
-/
namespace Marginalia.Url

/-- The text in front of a character and behind it; nothing is behind it if it does not occur. -/
def cutAt (c : Char) (t : Text) : Text × Text := (t.takeWhile (· ≠ c), (t.dropWhile (· ≠ c)).drop 1)

/-- The text behind the last place of a character, and the text in front of it if there is one. -/
def cutAtLast (c : Char) (t : Text) : Option Text × Text :=
  match t.reverse.span (· ≠ c) with
  | (behind, []) => (none, behind.reverse)
  | (behind, _ :: front) => (some front.reverse, behind.reverse)

/-- Control characters may not stand in an address. -/
def isControl (c : Char) : Bool := c.toNat < 0x20 || c.toNat == 0x7F

def isLetter (c : Char) : Bool := ('a' ≤ c && c ≤ 'z') || ('A' ≤ c && c ≤ 'Z')

def isDigit (c : Char) : Bool := '0' ≤ c && c ≤ '9'

/-- The scheme in front of the first colon and the text behind it. An address whose beginning is no
scheme has none; a colon alone is malformed. -/
def scheme? (t : Text) : Option (Text × Text) :=
  let mark (c : Char) : Bool := isDigit c || c == '+' || c == '-' || c == '.'
  match t.span (fun c => isLetter c || mark c) with
  | ([], ':' :: _) => none
  | (s, ':' :: rest) => if (s.head?.map isLetter).getD false then some (s, rest) else some ([], t)
  | _ => some ([], t)

/-- Whether a port is missing or has digits only. -/
def isPort : Text → Bool
  | [] => true
  | c :: ds => c == ':' && ds.all isDigit

/-- The characters that may stand in a host as they are. -/
def isHostChar (c : Char) : Bool :=
  c.toNat ≥ 0x80 || isLetter c || isDigit c || ("-_.~!$&'()*+,;=:[]<>\"" : Text).contains c

/-- Whether a host is well written. Only bytes beyond ASCII, and the percent sign, are escaped. -/
def isHostText : Text → Bool
  | [] => true
  | '%' :: hi :: lo :: t =>
    match Percent.digitValue? hi, Percent.digitValue? lo with
    | some h, some l => (h ≥ 8 || (h == 2 && l == 5)) && isHostText t
    | _, _ => false
  | c :: t => c != '%' && isHostChar c && isHostText t

/-- Whether the zone of a bracketed host is well written. -/
def isZoneText : Text → Bool
  | [] => true
  | '%' :: hi :: lo :: t =>
    match Percent.digitValue? hi, Percent.digitValue? lo with
    | some h, some l =>
      let c := Char.ofNat (h * 16 + l)
      ((h == 2 && l == 5) || c == ' ' || (c.toNat < 0x80 && isHostChar c)) && isZoneText t
    | _, _ => false
  | c :: t => c != '%' && isHostChar c && isZoneText t

/-- Whether a text is a decimal byte without leading zeros. -/
def isByte (t : Text) : Bool :=
  match Text.toNat? t with
  | some n => n ≤ 255 && t.length == (Text.ofNat n).length
  | none => false

/-- Whether a text is a dotted quad. -/
def isQuad (t : Text) : Bool :=
  let fields := Text.splitAtChar '.' t
  fields.length == 4 && fields.all isByte

/-- Whether a text is a group of a numeric host. -/
def isGroup (t : Text) : Bool :=
  !t.isEmpty && t.length ≤ 4 && t.all fun c => (Percent.digitValue? c).isSome

/-- The number of groups between colons; a dotted quad at the end counts as two. -/
def groupCount? (quadAllowed : Bool) (t : Text) : Option Nat :=
  if t.isEmpty then some 0
  else
    let groups := Text.splitAtChar ':' t
    let last := groups.getLast?.getD []
    if groups.all isGroup then some groups.length
    else if quadAllowed && groups.dropLast.all isGroup && isQuad last then some (groups.length + 1)
    else none

/-- Whether a text is a numeric host of eight groups, of which a run of zeros may be left out. -/
def isNumericHost (t : Text) : Bool :=
  match Text.cut? "::" t with
  | none => groupCount? true t == some 8
  | some (front, behind) =>
    match groupCount? false front, groupCount? true behind with
    | some m, some n => m + n < 8
    | _, _ => false

/-- Whether a bracketed host is well written. -/
def isBracketed (t : Text) : Bool :=
  match Text.cut? "%25" t with
  | none => isNumericHost t
  | some (front, zone) => isNumericHost front && !zone.isEmpty && isZoneText zone

/-- Whether a host with its port is well written. Only the first character may open a bracket. -/
def isHost (t : Text) : Bool :=
  match cutAtLast '[' t with
  | (some front, inside) =>
    match cutAtLast ']' inside with
    | (some host, port) => front.isEmpty && isPort port && isBracketed host
    | (none, _) => false
  | (none, _) =>
    match cutAtLast ':' t with
    | (some _, port) => isPort (':' :: port) && isHostText t
    | (none, _) => isHostText t

/-- The characters that may stand in front of a host. -/
def isUserChar (c : Char) : Bool :=
  isLetter c || isDigit c || ("-._:~!$&'()*+,;=%@" : Text).contains c

def isUser (t : Text) : Bool := t.all isUserChar && (Percent.unescape? t).isSome

/-- Whether the part between the double slash and the path is well written. -/
def isAuthority (t : Text) : Bool :=
  match cutAtLast '@' t with
  | (none, host) => isHost host
  | (some user, host) => isHost host && isUser user

/-- The path of what stands behind the scheme. -/
def hierarchyPath? (hasScheme : Bool) (rest : Text) : Option Bytes :=
  if rest.head? ≠ some '/' then
    if hasScheme then some []
    else if (rest.takeWhile (· ≠ '/')).contains ':' then none
    else Percent.unescape? rest
  else if Text.opens "//" rest ∧ (hasScheme ∨ ¬ Text.opens "///" rest) then
    let authority := (rest.drop 2).takeWhile (· ≠ '/')
    if isAuthority authority then Percent.unescape? ((rest.drop 2).dropWhile (· ≠ '/')) else none
  else Percent.unescape? rest

/-- The path of an address with its escapes resolved, if the address is well formed. -/
def path? (url : Text) : Option Bytes := do
  let (address, fragment) := cutAt '#' url
  if address.any isControl then none
  let (scheme, rest) ← scheme? address
  let path ← if address = "*" then some (Utf8.encode "*")
    else hierarchyPath? (!scheme.isEmpty) (cutAt '?' rest).1
  let _ ← Percent.unescape? fragment
  return path

/-- The name of the file at an address: the last component of its path, or the address itself if it
has none. -/
def fileName (url : Text) : Text :=
  match path? url with
  | none => url
  | some path =>
    let name := Path.base (Utf8.decodeLenient path)
    if name = Path.here ∨ name = "/" then url else name

end Marginalia.Url
