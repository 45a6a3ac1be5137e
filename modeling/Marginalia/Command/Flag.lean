import Marginalia.Numeral
import Marginalia.Text.Quoted

/-!
# Flags

A flag of the command line is a switch or takes a text or a number. It goes by one or more names. A
switch that is given no value is turned on.
-/
namespace Marginalia

inductive Flag where
  | config
  | code
  | level
  | noop
  | write
  | file
  | json
  | style
  | title
  | parallel
  | verbose
  | query
  | force
  | help
  | version
deriving DecidableEq, Repr

inductive FlagKind where
  | switch
  | text
  | number
deriving DecidableEq, Repr

inductive FlagValue where
  | switch (on : Bool)
  | text (t : Text)
  | number (n : Int)
deriving DecidableEq, Repr

/-- What is wrong with the flags of a command line. Names are those that were typed. -/
inductive UsageError where
  | unknown (name : Text)
  | valueMissing (typed : Text)
  | notSwitch (name value : Text)
  | notNumber (name value : Text) (cause : Numeral.NumeralError)
deriving DecidableEq, Repr

namespace UsageError

def numeralMessage (value : Text) : Numeral.NumeralError → Text
  | .malformed => "strconv.ParseInt: parsing " ++ Quoted.quote value ++ ": invalid syntax"
  | .outOfRange => "strconv.ParseInt: parsing " ++ Quoted.quote value ++ ": value out of range"

def valueMessage (name value cause : Text) : Text :=
  "invalid value " ++ Quoted.quote value ++ " for flag -" ++ name ++ ": " ++ cause

def message : UsageError → Text
  | .unknown name => "flag provided but not defined: -" ++ name
  | .valueMissing typed => "flag needs an argument: " ++ typed
  | .notSwitch name value => valueMessage name value "parse error"
  | .notNumber name value cause => valueMessage name value (numeralMessage value cause)

end UsageError

namespace Flag

def names : Flag → List Text
  | .config => ["config"]
  | .code => ["code", "c"]
  | .level => ["level", "l"]
  | .noop => ["noop", "n"]
  | .write => ["write", "w"]
  | .file => ["file", "f"]
  | .json => ["json"]
  | .style => ["style"]
  | .title => ["title"]
  | .parallel => ["parallel", "p"]
  | .verbose => ["verbose"]
  | .query => ["match", "m"]
  | .force => ["force"]
  | .help => ["help", "h"]
  | .version => ["version", "v"]

def kind : Flag → FlagKind
  | .config | .file | .style | .title | .query => .text
  | .level | .parallel => .number
  | _ => .switch

/-- The position of a switch that a word names. -/
def switched? (word : Text) : Option Bool :=
  if [("1" : Text), "t", "T", "true", "TRUE", "True"].contains word then some true
  else if [("0" : Text), "f", "F", "false", "FALSE", "False"].contains word then some false
  else none

/-- Reads the value of a flag that was typed under a name. -/
def readValue (f : Flag) (name value : Text) : Except UsageError FlagValue :=
  match f.kind with
  | .text => .ok (.text value)
  | .number =>
    match Numeral.read value with
    | .ok n => .ok (.number n)
    | .error cause => .error (.notNumber name value cause)
  | .switch =>
    let word : Text := if value.isEmpty then "true" else value
    match switched? word with
    | some on => .ok (.switch on)
    | none => .error (.notSwitch name word)

end Flag

end Marginalia
