import PenRail.Command.Task
import PenRail.CommandLine.Grammar

/-!
# Control of the rail

One action on the rail, which is over when the command is. The controller starts with the view of a rail that is off;
what it needs to know it reads.
-/

namespace PenRail.Command

open CommandLine (PowerAction)
open Config (RegulatorSettings)

/-- The power-good line, which may not be wired up. -/
inductive PowerGoodLine
  | line (number : UInt64) (activeLow : Bool)
  | unconfigured
  deriving DecidableEq, Repr

namespace PowerGoodLine

/-- The line of the settings, made ready. -/
def setUp (number : Option UInt64) (activeLow : Bool) : Task PowerGoodLine := do
  match number with
  | some number => do
    setUpLine number
    pure (.line number activeLow)
  | none => pure .unconfigured

/-- Why power good could not be read, as the controller is told. What happened in detail is in the log. -/
def unreadable : String := "Other"

/-- Whether power is good. The polarity of the settings is the only inversion. -/
def read : PowerGoodLine → Program interface (Except String Bool)
  | .line number activeLow => do
    match (← host (.readLine number) : Except String Bool) with
    | .ok level => pure (.ok (level != activeLow))
    | .error reason => do
      say .warn ("Power-good gpio: " ++ reason)
      pure (.error unreadable)
  | .unconfigured => do
    say .warn "Power-good gpio not configured"
    pure (.error unreadable)

end PowerGoodLine

/-- The rail as this machine has it. -/
structure RailAccess where
  place : Place
  line : PowerGoodLine
  deriving DecidableEq, Repr

namespace RailAccess

/-- Answers the controller's requests. -/
def answer (access : RailAccess) : (q : Rail.Request) → Program interface q.Reply
  | .transfer t => access.place.transfer t
  | .powerGood => access.line.read
  | .delay nanoseconds => host (.delay nanoseconds)
  | .log entry => Program.request (I := interface) (.log entry)

/-- Runs a part of the controller as a part of the task. -/
def run {α : Type} (access : RailAccess) (p : Program Rail.interface (Rail.Result α)) : Task α :=
  attempt .rail (p.under access.answer)

/-- Runs a step of a controller whose view is not needed afterwards. -/
def runStep {α : Type} (access : RailAccess) (p : Program Rail.interface (Rail.Outcome α)) : Task α :=
  access.run (Prod.fst <$> p)

/-- Carries an action out. -/
def perform (access : RailAccess) : PowerAction → Task Unit
  | .enable => do
    access.run Rail.clearPowerOnDelay
    access.runStep (Rail.Controller.enable {})
    say .info "VCOM rail enabled"
  | .disable => do
    access.runStep (Rail.Controller.disable {})
    say .info "VCOM rail disabled"
  | .status => do
    let status ← access.runStep (Rail.Controller.readStatus {})
    let enabled ← access.run Rail.readOnOff
    print s!"enabled:    {enabled}"
    print ("power_good: " ++ if status.powerGood then "ON" else "OFF")
    print ("state:      " ++ status.fault.description)
  | .vcom set => do
    if let some millivolts := set then
      access.run (Rail.Vcom.writeSigned millivolts)
    let millivolts ← access.run Rail.Vcom.readSigned
    print (toString millivolts.toInt)
  | .temperature => do
    let degrees ← access.run Rail.readTemperature
    print (toString degrees.toInt)

end RailAccess

/-- The rail of the settings, made ready. -/
def reachRail (s : RegulatorSettings) : Task RailAccess := do
  let place ← Place.reach s.bus s.address
  let line ← PowerGoodLine.setUp s.powerGoodLine s.powerGoodActiveLow
  pure ⟨place, line⟩

def power (s : RegulatorSettings) (action : PowerAction) : Task Unit := do
  (← reachRail s).perform action

end PenRail.Command
