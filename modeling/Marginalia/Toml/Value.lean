import Marginalia.Binary64

/-!
# Values of a configuration file

A configuration file is a table of named values. Dates and times are kept as they are written; those
that name an instant are told apart from those that leave the time zone open.
-/
namespace Marginalia.Toml

inductive Value where
  | text (t : Text)
  | integer (n : Int)
  | float (x : Binary64)
  | boolean (b : Bool)
  | instant (written : Text)
  | calendar (written : Text)
  | array (items : List Value)
  | table (fields : List (Text × Value))

abbrev Table := List (Text × Value)

/-- A reader takes what it wants from the front of a text, and fails where the text is malformed. -/
abbrev Reader (α : Type) := Text → Option (α × Text)

end Marginalia.Toml
