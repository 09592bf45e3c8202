import PenRail.Bench.Chip
import PenRail.Bench.InputLayer
import PenRail.Bench.Pin
import PenRail.Bench.Trace
import PenRail.Pen.Digitizer
import PenRail.Rail.Controller

/-!
# The bench

One chip, one line, one consumer of frames, and a record of what reached them. The drivers' requests are answered from
here, so a driver can be run on any script.
-/

namespace PenRail.Bench

/-- Who takes a digitizer's frames. -/
inductive Consumer
  /-- Keeps the frames it accepts; the script says which it refuses. -/
  | recorder (refusals : List (Option String)) (accepted : List Pen.Frame)
  /-- Writes them to the virtual device. -/
  | device (writer : Uinput.Writer)

structure Desk where
  chip : Chip := {}
  /-- With an address the chip sits behind an adapter. -/
  address : Option UInt8 := none
  pin : Pin := {}
  inputLayer : InputLayer := {}
  consumer : Consumer := .recorder [] []
  trace : Trace := []
  log : List Log.Entry := []

namespace Desk

def record (event : Event) : StateM Desk Unit :=
  modify fun d => { d with trace := d.trace ++ [event] }

def note (entry : Log.Entry) : StateM Desk Unit :=
  modify fun d => { d with log := d.log ++ [entry] }

/-- The chip answers an adapter. -/
def answerAdapter (q : Bus.Addressed) : StateM Desk (Except Bus.Cause q.transfer.Reply) := do
  let (outcome, chip) := (← get).chip.answerAdapter q.transfer
  modify fun d => { d with chip }
  record (.transfer (.addressed q.address) q.transfer (failed outcome))
  pure outcome

/-- The chip answers a driver, directly or through the adapter. -/
def answerBus (t : Bus.Transfer) : StateM Desk (Except Bus.Failure t.Reply) := do
  match (← get).address with
  | some address => (Bus.bindTo address t).under answerAdapter
  | none =>
    let (outcome, chip) := (← get).chip.answer t
    modify fun d => { d with chip }
    record (.transfer .direct t (failed outcome))
    pure outcome

def answerRail : (q : Rail.Request) → StateM Desk q.Reply
  | .transfer t => answerBus t
  | .powerGood => do
    let (level, pin) := (← get).pin.read
    modify fun d => { d with pin }
    record (.wait .pinRead)
    pure level
  | .delay nanoseconds => record (.wait (.delay nanoseconds))
  | .log entry => note entry

def answerUinput : (q : Uinput.Request) → StateM Desk q.Reply
  | .call c => do
    let (outcome, inputLayer) := (← get).inputLayer.answer c
    modify fun d => { d with inputLayer }
    record (.uinput c (failed outcome))
    pure outcome
  | .systemName => do
    pure (← get).inputLayer.systemName
  | .log entry => note entry

/-- The consumer takes a frame or refuses it. -/
def take (frame : Pen.Frame) : StateM Desk (Except String Unit) := do
  match (← get).consumer with
  | .recorder refusals accepted =>
    match InputLayer.consume refusals with
    | (.ok (), rest) => do
      modify fun d => { d with consumer := .recorder rest (accepted ++ [frame]) }
      pure (.ok ())
    | (.error reason, rest) => do
      modify fun d => { d with consumer := .recorder rest accepted }
      pure (.error reason)
  | .device writer => do
    let (outcome, writer) ← (writer.submit frame).under answerUinput
    modify fun d => { d with consumer := .device writer }
    pure outcome

def answerPen : (q : Pen.Request) → StateM Desk q.Reply
  | .transfer t => answerBus t
  | .submit frame => take frame
  | .log entry => note entry

/-- The desk with an empty record. -/
def fresh (d : Desk) : Desk :=
  { d with
    trace := []
    log := []
    consumer := match d.consumer with
      | .recorder refusals _ => .recorder refusals []
      | .device writer => .device writer }

/-- The frames that a recording consumer accepted. -/
def frames (d : Desk) : List Pen.Frame :=
  match d.consumer with
  | .recorder _ accepted => accepted
  | .device _ => []

end Desk

end PenRail.Bench
