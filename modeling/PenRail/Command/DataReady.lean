import PenRail.Command.Task
import PenRail.Config.Settings

/-!
# Waiting for reports

With a data-ready line a report is there while the line is low; in between one looks again after the polling interval.
Without a line every interval counts as a notification.
-/

namespace PenRail.Command

open Config (DigitizerSettings)

structure DataReady where
  line : Option UInt64
  /-- Milliseconds. -/
  interval : UInt64
  deriving DecidableEq, Repr

namespace DataReady

def ofSettings (s : DigitizerSettings) : DataReady :=
  ⟨s.irqLine, s.pollInterval⟩

/-- Makes the line ready, if there is one. -/
def setUp (r : DataReady) : Task Unit := do
  if let some line := r.line then
    setUpLine line

def pause (r : DataReady) : Program interface Unit :=
  host (.sleep (r.interval.toNat * Rail.millisecond))

/-- Looks once whether a report is there. Where none is, the pause until the next look is already over. -/
def look (r : DataReady) : Task Bool := do
  match r.line with
  | none => do
    r.pause
    pure true
  | some line =>
    let level ← attempt .dataReady (host (.readLine line))
    if level then
      r.pause
    pure (!level)

end DataReady

end PenRail.Command
