import PenRail.Command.Forward

/-!
# Looking at the digitizer

Two commands for finding out what a digitizer does: one prints its limits, the other prints its reports, numbered, as they
come. Reports that fail have no number.
-/

namespace PenRail.Command

open Config (DigitizerSettings)

/-- The limits, a line for each. -/
def capabilityLines (caps : Pen.Capabilities) : List String :=
  [s!"x_max:     {caps.xMax}",
    s!"y_max:     {caps.yMax}",
    s!"pressure:  {caps.pressureMax}",
    s!"distance:  {caps.distanceMax} (physical {caps.distancePhysicalMax})",
    s!"tilt:      ±{caps.tiltXMax} x ±{caps.tiltYMax}",
    s!"firmware:  {caps.firmware}"]

/-- Prints lines in order. -/
def printAll : List String → Program interface Unit
  | [] => pure ()
  | line :: rest => do
    print line
    printAll rest

def printCapabilities (s : DigitizerSettings) : Task Unit := do
  let (_, digitizer) ← reachDigitizer s
  printAll (capabilityLines digitizer.capabilities)

def toolWord : Pen.Tool → String
  | .pen => "pen"
  | .eraser => "rubber"

/-- The word for something that is on. -/
def flag (on : Bool) (word : String) : String :=
  if on then word else "-"

/-- A sample as one line. -/
def sampleText (s : Pen.Sample) : String :=
  let words := [Text.padRight 6 ' ' (toolWord s.tool), flag s.inProximity "PROX", flag s.touch "TIP", flag s.eraser "ERS",
    flag s.button1 "B1", flag s.button2 "B2"]
  String.intercalate " " words ++
    s!"  x={s.x} y={s.y} p={s.pressure} d={s.distance} tilt=({s.tiltX.toInt}, {s.tiltY.toInt})"

/-- A printed report: its number and its sample. -/
def reportLine (number : Nat) (s : Pen.Sample) : String :=
  Text.padLeft 6 ' ' (toString number) ++ "  " ++ sampleText s

/-- Where the digitizer is, and how many of its reports have been printed. -/
structure Dump where
  place : Place
  /-- At most as many as there were rounds, and as were asked for, so a count in sixty-four bits holds it. -/
  printed : Nat := 0
  deriving DecidableEq, Repr

namespace Dump

def start (s : DigitizerSettings) : Task Dump := do
  let (place, _) ← reachDigitizer s
  (DataReady.ofSettings s).setUp
  report s!"Dumping pen reports from {s.bus} (Ctrl+C to stop):"
  report ""
  pure { place }

/-- Reads one report and prints it. -/
def printNext (d : Dump) : Program interface Dump := do
  match ← Pen.Digitizer.readSample.under d.place.answerReader with
  | .ok sample => do
    print (reportLine (d.printed + 1) sample)
    pure { d with printed := d.printed + 1 }
  | .error error => do
    say .warn error.message
    pure d

/-- Whether as many reports have been printed as were asked for. -/
def enough (count : Option UInt64) (d : Dump) : Bool :=
  match count with
  | some limit => limit.toNat ≤ d.printed
  | none => false

/-- Looks once for a report and prints it if it is there. -/
def round (s : DigitizerSettings) (d : Dump) : Task Dump := do
  if ← (DataReady.ofSettings s).look then
    d.printNext
  else
    pure d

end Dump

/-- The command that prints reports: so many, or until the data-ready line fails. -/
def dump (s : DigitizerSettings) (count : Option UInt64) : Process interface (Except Failure Unit) where
  State := Dump
  start := Turn.ofTask (Dump.start s)
  round d := if d.enough count then pure (.over (.ok ())) else Turn.ofTask (d.round s)

end PenRail.Command
