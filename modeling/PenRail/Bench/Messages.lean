import PenRail.Log

/-!
# Messages as they are recorded

Why a file could not be parsed is explained by text that is not recorded. It may run over several lines, so after such
an entry nothing is recorded until a line comes that begins as an entry or as the report of a failure does.
-/

namespace PenRail.Bench

/-- How an entry begins whose explanation is left out. -/
def unexplained : String := "WARN Failed to parse "

/-- Whether a line begins as an entry or as the report of a failure does. -/
def beginsMessage (line : String) : Bool :=
  [Log.Level.error, .warn, .info, .debug].any (fun level => line.startsWith (level.name ++ " ")) || line.startsWith "Error: "

/-- The lines that are recorded; `inside` says whether the first belongs to an explanation unless it begins something new. -/
def recordedFrom (inside : Bool) : List String → List String
  | [] => []
  | line :: rest =>
    if inside && !beginsMessage line then
      recordedFrom true rest
    else
      line :: recordedFrom (line.startsWith unexplained) rest

/-- The lines of a text, of which the last need not be ended. -/
def lines (text : String) : List String :=
  let pieces := text.splitOn "\n"
  if pieces.getLast? = some "" then pieces.dropLast else pieces

/-- The lines of a message stream that are recorded. -/
def recorded (messages : String) : List String :=
  recordedFrom false (lines messages)

end PenRail.Bench
