import PenRail.Text.Terminal

/-!
# Log entries

What the drivers have to say besides their results. Which entries are shown is not decided here.
-/

namespace PenRail.Log

/-- How urgent an entry is, from most to least. -/
inductive Level
  | error
  | warn
  | info
  | debug
  deriving DecidableEq, Repr

/-- The word that stands in front of an entry of this level. -/
def Level.name : Level → String
  | .error => "ERROR"
  | .warn => "WARN"
  | .info => "INFO"
  | .debug => "DEBUG"

/-- How much a reader must ask for to see this level: errors first, debugging last. -/
def Level.verbosity : Level → Nat
  | .error => 1
  | .warn => 2
  | .info => 3
  | .debug => 4

/-- One message. Measured times are not part of it: they are written as an underscore. -/
structure Entry where
  level : Level
  text : String
  deriving DecidableEq, Repr

/-- The entry as one line. -/
def Entry.line (e : Entry) : String :=
  e.level.name ++ " " ++ e.text

/-- The entry as an operator is shown it: further lines stand a little to the right, and nothing in it drives the
terminal. The end of its last line is part of it, so a string that is not ended takes that away too. -/
def Entry.shown (e : Entry) : String :=
  Text.Terminal.plain ("\n    ".intercalate (e.line.splitOn "\n") ++ "\n")

end PenRail.Log
