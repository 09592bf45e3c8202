import PenRail.Bus.Basic
import PenRail.Log
import PenRail.Rail.Fault
import PenRail.Rail.Register

/-!
# Sequencing the VCOM rail

The chip has no power-good interrupt. Switching on means setting the on/off bit and then polling the power-good line
every millisecond, up to a fixed budget; if power good never shows the rail is switched off again before the failure is
reported. Switching off always ends with the ramp-down wait, also when the transfer failed: a rail that is switched on
before it has discharged can latch a fault.

The controller keeps a cached view of the rail. `switchOff` is the only place that clears the on/off bit, and `enter`
the only place that changes the phase.
-/

namespace PenRail.Rail

/-- Where the rail is in its sequence. -/
inductive Phase
  | disabled
  | enabling
  | enabled
  | disabling
  deriving DecidableEq, Repr

def Phase.name : Phase → String
  | .disabled => "Disabled"
  | .enabling => "Enabling"
  | .enabled => "Enabled"
  | .disabling => "Disabling"

/-- The on/off bit is set in these phases: from the switch-on until the switch-off. -/
def Phase.isOn : Phase → Bool
  | .enabling | .enabled => true
  | .disabled | .disabling => false

/-- Why an operation on the rail failed. -/
inductive Error
  | bus (failure : Bus.Failure)
  | malformed (what : Malformed)
  /-- Power good never came; the rail has been switched off again. -/
  | timeout (waits : Nat)
  /-- Power good never came and the switch-off failed, so the rail is still on. -/
  | timeoutRailOn (failure : Bus.Failure)
  /-- The power-good line could not be read, for the reason given. -/
  | pin (reason : String)
  | outOfRange (millivolts : Int32)
  deriving DecidableEq, Repr

/-- The error in words. No clock is read, so the time spent counts as zero. -/
def Error.message : Error → String
  | .bus failure => failure.message
  | .malformed what => what.message
  | .timeout waits => s!"power good signal timeout after 0 ms ({waits} waits)"
  | .timeoutRailOn _ => "power good signal timeout after 0 ms, rail left on"
  | .pin reason => "failed to read power good gpio: " ++ reason
  | .outOfRange millivolts => s!"vcom {millivolts.toInt} mV out of range"

/-- What an error was caused by, where it is more than a wrapper. -/
def Error.source : Error → Option String
  | .timeoutRailOn failure => some failure.message
  | _ => none

/-- What the controller asks for. -/
inductive Request
  | transfer (t : Bus.Transfer)
  /-- The level of the power-good line, or the reason why it cannot be read. -/
  | powerGood
  | delay (nanoseconds : Nat)
  | log (entry : Log.Entry)

abbrev Request.Reply : Request → Type
  | .transfer t => Except Bus.Failure t.Reply
  | .powerGood => Except String Bool
  | .delay _ => Unit
  | .log _ => Unit

abbrev interface : Interface := ⟨Request, Request.Reply⟩

/-- The controller's cached view of the rail. -/
structure Controller where
  phase : Phase := .disabled
  /-- Follows the on/off bit. -/
  enabled : Bool := false
  /-- Power good was seen since the rail was last off. -/
  powerGoodSeen : Bool := false
  lastFault : Fault := .none
  deriving DecidableEq, Repr

abbrev Result (α : Type) := Except Error α

/-- How a step of the controller ends: with a result, and the view as it then is. -/
abbrev Outcome (α : Type) := Result α × Controller

def say (level : Log.Level) (text : String) : Program interface Unit :=
  Program.request (I := interface) (.log ⟨level, text⟩)

def delay (nanoseconds : Nat) : Program interface Unit :=
  Program.request (I := interface) (.delay nanoseconds)

/-- A register program as part of the controller's. -/
def onBus {α : Type} (action : Bus.Action α) : Program interface (Except Bus.Failure α) :=
  Program.under (fun t => Program.request (I := interface) (.transfer t)) action.run

def millisecond : Nat := 1000000

/-- How often the power-good line is read before the rail is given up. -/
def pollLimit : Nat := 500

/-- The ramp-down wait, in milliseconds. -/
def settleTime : Nat := 30

/-- The outcome of polling: after how many waits power good was seen, if at all, or why the line could not be read. -/
abbrev Polled := Except String (Option Nat)

/-- Reads the line up to `budget` times, a millisecond apart, `waits` of which are already over. -/
def pollFrom (waits : Nat) : (budget : Nat) → Program interface Polled
  | 0 => pure (.ok none)
  | budget + 1 => do
    match (← Program.request (I := interface) .powerGood : Except String Bool) with
    | .error reason => do
      say .error ("Failed to read pgood gpio: " ++ reason)
      pure (.error reason)
    | .ok true => pure (.ok (some waits))
    | .ok false => do
      delay millisecond
      pollFrom (waits + 1) budget

def poll : Program interface Polled :=
  pollFrom 0 pollLimit

/-- Sets or clears the on/off bit and leaves the other mode bits alone. -/
def setOnOff (on : Bool) : Program interface (Except Bus.Failure Unit) :=
  onBus (Bus.updateRegister Register.operationMode Register.onOff (if on then Register.onOff else 0))

/-- Clears the on/off bit and waits for the output to ramp down, whether or not that worked. -/
def switchOff : Program interface (Except Bus.Failure Unit) := do
  let outcome ← setOnOff false
  delay (settleTime * millisecond)
  pure outcome

namespace Controller

/-- The view in the next phase: power good is forgotten once the rail is off. -/
def moveTo (c : Controller) (next : Phase) : Controller :=
  { c with
    phase := next
    enabled := next.isOn
    powerGoodSeen := if next = .disabled then false else c.powerGoodSeen }

/-- Moves to the next phase and says so if it is another one. -/
def enter (c : Controller) (next : Phase) : Program interface Controller := do
  if c.phase ≠ next then
    say .debug s!"Regulator {c.phase.name} -> {next.name}"
  pure (c.moveTo next)

/-- What is left to do when power good did not come: switch off, and report how far that got. -/
def giveUp (c : Controller) : Program interface (Outcome Unit) := do
  say .error "Power good signal timeout after _ ms"
  let c ← c.enter .disabling
  match ← switchOff with
  | .error failure => do
    say .error ("Failed to disable rail after timeout: " ++ failure.message)
    let c ← c.enter .enabling
    pure (.error (.timeoutRailOn failure), c)
  | .ok () => do
    let c ← c.enter .disabled
    pure (.error (.timeout pollLimit), c)

/-- Polls for power good once the on/off bit is set. A line that cannot be read leaves the rail as it is. -/
def awaitPower (c : Controller) : Program interface (Outcome Unit) := do
  match ← poll with
  | .error reason => pure (.error (.pin reason), c)
  | .ok none => c.giveUp
  | .ok (some waits) => do
    say .debug s!"Power good OK (took _ ms, {waits} waits)"
    let c ← { c with powerGoodSeen := true }.enter .enabled
    pure (.ok (), c)

/-- Switches the rail on and waits for power good. A rail that is already on is left alone. -/
def enable (c : Controller) : Program interface (Outcome Unit) := do
  if c.phase = .enabled then
    pure (.ok (), c)
  else
    let c ← c.enter .enabling
    match ← setOnOff true with
    | .error failure => do
      let c ← c.enter .disabled
      pure (.error (.bus failure), c)
    | .ok () => c.awaitPower

/-- Switches the rail off and waits for the ramp-down. If that fails the view is what it was. -/
def disable (c : Controller) : Program interface (Outcome Unit) := do
  let before := c.phase
  let c ← c.enter .disabling
  match ← switchOff with
  | .error failure => do
    let c ← c.enter before
    pure (.error (.bus failure), c)
  | .ok () => do
    let c ← c.enter .disabled
    pure (.ok (), c)

end Controller

/-- Power good and the latched fault, as one fresh read of the fault flag byte gives them. -/
structure Status where
  powerGood : Bool
  fault : Fault
  deriving DecidableEq, Repr

def readByte (register : UInt8) : Program interface (Result UInt8) := do
  pure ((← onBus (Bus.readRegister register)).mapError .bus)

/-- Power good as the chip reports it. -/
def isPowerGood (flags : UInt8) : Bool :=
  flags &&& Register.powerGood != 0

namespace Controller

/-- Reads the fault flag byte and remembers its fault. A byte with no fault of that number is an error, and changes
nothing. -/
def readStatus (c : Controller) : Program interface (Outcome Status) := do
  match ← readByte Register.faultFlag with
  | .error e => pure (.error e, c)
  | .ok flags =>
    match Fault.ofStatus flags with
    | .error what => pure (.error (.malformed what), c)
    | .ok fault => pure (.ok ⟨isPowerGood flags, fault⟩, { c with lastFault := fault })

/-- The latched fault in words. -/
def describeFault (c : Controller) : Program interface (Outcome String) := do
  let (status, c) ← c.readStatus
  pure (status.map (·.fault.description), c)

end Controller

/-! What follows leaves the controller's view alone. -/

/-- Clears the power-on delay, so that the rail comes up as soon as it is switched on. -/
def clearPowerOnDelay : Program interface (Result Unit) := do
  pure ((← onBus (Bus.writeRegister Register.powerOnDelay 0)).mapError .bus)

/-- Whether the on/off bit is set in the chip. -/
def readOnOff : Program interface (Result Bool) := do
  pure ((← readByte Register.operationMode).map fun mode => mode &&& Register.onOff != 0)

/-- Polls for power good without touching the rail. -/
def waitPowerGood : Program interface (Result Bool) := do
  match ← poll with
  | .error reason => pure (.error (.pin reason))
  | .ok seen => pure (.ok seen.isSome)

/-- Power good as the chip reports it, whatever the fault bits are. -/
def readPowerGood : Program interface (Result Bool) := do
  pure ((← readByte Register.faultFlag).map isPowerGood)

/-- Degrees Celsius. -/
def readTemperature : Program interface (Result Int8) := do
  pure ((← readByte Register.thermistor).map (·.toInt8))

namespace Vcom

/-- The largest magnitude that can be asked for, in millivolts. -/
def limit : Int32 := 5000

/-- The nine bits that two registers hold together. -/
def join (low high : UInt8) : UInt16 :=
  (low.toUInt16 ||| (high.toUInt16 <<< 8)) &&& Register.vcomMask

/-- The register value for a magnitude in millivolts, rounded down to a step of ten. -/
def code (millivolts : Int32) : UInt16 :=
  (millivolts / 10).toInt16.toUInt16 &&& Register.vcomMask

/-- The register value as the chip holds it. -/
def readCode : Program interface (Result UInt16) := do
  match ← readByte Register.vcomLow with
  | .error e => pure (.error e)
  | .ok low => pure ((← readByte Register.vcomHigh).map (join low))

/-- The register value in units of `step`. -/
def scaled (step : Int32) (code : UInt16) : Int32 :=
  Int32.ofNat code.toNat * step

/-- VCOM magnitude in millivolts. -/
def read : Program interface (Result Int32) := do
  pure ((← readCode).map (scaled 10))

/-- VCOM magnitude in microvolts. -/
def readMicrovolts : Program interface (Result Int32) := do
  pure ((← readCode).map (scaled 10000))

/-- VCOM as the panel sees it: a negative voltage, in millivolts. -/
def readSigned : Program interface (Result Int32) := do
  pure ((← read).map (- ·))

/-- Writes a register value, low byte first. -/
def writeCode (code : UInt16) : Program interface (Result Unit) := do
  match ← onBus (Bus.writeRegister Register.vcomLow code.toUInt8) with
  | .error failure => pure (.error (.bus failure))
  | .ok () => pure ((← onBus (Bus.writeRegister Register.vcomHigh (code >>> 8).toUInt8)).mapError .bus)

/-- Stores a magnitude in millivolts. A value outside the range is refused before anything is written. -/
def write (millivolts : Int32) : Program interface (Result Unit) :=
  if 0 ≤ millivolts ∧ millivolts ≤ limit then
    writeCode (code millivolts)
  else
    pure (.error (.outOfRange millivolts))

/-- Stores a voltage as the panel sees it, zero or negative. -/
def writeSigned (millivolts : Int32) : Program interface (Result Unit) :=
  if -limit ≤ millivolts ∧ millivolts ≤ 0 then
    write (-millivolts)
  else
    pure (.error (.outOfRange millivolts))

end Vcom

end PenRail.Rail
