import PenRail.Bench.Desk
import PenRail.Rail.Method

/-!
# Sessions on the bench

A session is a list of steps: operations of a driver, and changes to the scripts of its devices. Each step is answered
with its result and with what was seen and said during that step alone.
-/

namespace PenRail.Bench

/-- What one step of a session gave. -/
structure Observed (α : Type) where
  result : α
  trace : List String
  log : List String

/-- A program run on a desk with an empty record. -/
def observe {α : Type} (action : StateM Desk α) (d : Desk) : Observed α × Desk :=
  let (result, d) := action.run d.fresh
  (⟨result, d.trace.lines, d.log.map Log.Entry.line⟩, d)

/-- Runs steps in order, the state and the desk carried from one to the next. -/
def session {σ step answer : Type} (run : σ → step → StateM Desk (answer × σ)) :
    σ → Desk → List step → List (Observed answer × σ × Desk)
  | _, _, [] => []
  | s, d, x :: rest =>
    let (seen, d) := observe (run s x) d
    (⟨seen.result.1, seen.trace, seen.log⟩, seen.result.2, d) :: session run seen.result.2 d rest

/-! ## The bus -/

inductive BusStep
  | chip (change : Chip.Change)
  | perform (t : Bus.Transfer)
  | readRegister (register : UInt8)
  | writeRegister (register value : UInt8)
  | updateRegister (register mask value : UInt8)

inductive BusAnswer
  | unit
  | bytes (bytes : Bytes)
  | value (value : UInt8)

/-- What a transfer brings back, as an answer. -/
def BusAnswer.ofReply : (t : Bus.Transfer) → t.Reply → BusAnswer
  | .write _, _ => .unit
  | .read _, reply => .bytes reply
  | .exchange _ _, reply => .bytes reply

def BusStep.action : BusStep → Bus.Action BusAnswer
  | .chip _ => pure .unit
  | .perform t => BusAnswer.ofReply t <$> Bus.perform t
  | .readRegister register => .value <$> Bus.readRegister register
  | .writeRegister register value => (fun _ => .unit) <$> Bus.writeRegister register value
  | .updateRegister register mask value => (fun _ => .unit) <$> Bus.updateRegister register mask value

def runBusStep (_ : Unit) (step : BusStep) : StateM Desk (Except Bus.Failure BusAnswer × Unit) := do
  if let .chip change := step then
    modify fun d => { d with chip := d.chip.change change }
  pure (← step.action.run.under Desk.answerBus, ())

/-! ## The rail -/

inductive RailStep
  | chip (change : Chip.Change)
  | pin (change : Pin.Change)
  | call (m : Rail.Method)

def runRailStep (c : Rail.Controller) : RailStep → StateM Desk (Rail.Outcome Rail.Answer)
  | .chip change => do
    modify fun d => { d with chip := d.chip.change change }
    pure (.ok .unit, c)
  | .pin change => do
    modify fun d => { d with pin := d.pin.change change }
    pure (.ok .unit, c)
  | .call m => (c.call m).under Desk.answerRail

/-! ## The digitizer -/

inductive PenStep
  | chip (change : Chip.Change)
  | call (m : Pen.Method)

def runPenStep (d : Pen.Digitizer) : PenStep → StateM Desk (Pen.Result Pen.Answer × Pen.Digitizer)
  | .chip change => do
    modify fun desk => { desk with chip := desk.chip.change change }
    pure (.ok .unit, d)
  | .call m => (d.call m).under Desk.answerPen

/-! ## The virtual device -/

/-- Submits a frame a number of times; the result and the trace are those of the last time, the log that of all. -/
def submitTimes (w : Uinput.Writer) (frame : Pen.Frame) (d : Desk) :
    Nat → Observed (Except String Unit) × Uinput.Writer × Desk
  | 0 => (⟨.ok (), [], []⟩, w, d)
  | n + 1 =>
    let (before, w, d) := submitTimes w frame d n
    let (seen, d) := observe ((w.submit frame).under Desk.answerUinput) d
    (⟨seen.result.1, seen.trace, before.log ++ seen.log⟩, seen.result.2, d)

/-- Submits frames in order, each as often as it says. -/
def submissions (w : Uinput.Writer) (d : Desk) : List (Pen.Frame × Nat) → List (Observed (Except String Unit))
  | [] => []
  | (frame, times) :: rest =>
    let (seen, w, d) := submitTimes w frame d times
    seen :: submissions w d rest

end PenRail.Bench
