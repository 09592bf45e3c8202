/-!
# Documents as trees

What a TOML text says once its spelling is forgotten: a table of values by key, in the order in which they were
written. The keys of one table differ. Numbers with a fraction and points in time keep only their text, since no setting
has such a value.
-/

namespace PenRail.Toml

inductive Value
  | string (s : String)
  | integer (i : Int64)
  | float (literal : String)
  | boolean (b : Bool)
  | dateTime (literal : String)
  | array (items : List Value)
  | table (entries : List (String × Value))

/-- The entries of a table, or of a whole document. -/
abbrev Entries := List (String × Value)

end PenRail.Toml
