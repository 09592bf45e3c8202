import PenRail.Log
import PenRail.Pen.Event

/-!
# The virtual pen device

A virtual input device is declared once, with the axes and keys it may report, and is then written to frame by frame: the
events since the last `sync` in one write, then a finish, which is what a reader wakes up for.

The writer clears its pending events only after both have succeeded. So what a failed frame left behind is written again,
in front of the next one.
-/

namespace PenRail.Uinput

/-- One call to the input layer. -/
inductive Call
  | builder
  | identify (bus vendor product version : UInt16)
  | props (codes : List Nat)
  | axes (ranges : List Pen.AxisRange)
  | keys (keys : List Pen.Key)
  | build (name : String)
  | write (events : List Pen.RawEvent)
  | finish
  deriving DecidableEq, Repr

/-- What the writer asks for. -/
inductive Request
  | call (c : Call)
  /-- The name under which the system lists the device, if it can be found. -/
  | systemName
  | log (entry : Log.Entry)

/-- A call succeeds or gives the text of its failure. -/
abbrev Request.Reply : Request → Type
  | .call _ => Except String Unit
  | .systemName => Option String
  | .log _ => Unit

abbrev interface : Interface := ⟨Request, Request.Reply⟩

def call (c : Call) : Program interface (Except String Unit) :=
  Program.request (I := interface) (.call c)

def say (level : Log.Level) (text : String) : Program interface Unit :=
  Program.request (I := interface) (.log ⟨level, text⟩)

def deviceName : String := "Wacom I2C Digitizer"

/-- The number of the I2C bus type. -/
def busI2c : UInt16 := 0x18

def vendor : UInt16 := 0x056a

/-- The property of a device whose pointer is where it touches. -/
def directProperty : Nat := 1

/-- The keys that are declared. -/
def declaredKeys : List Pen.Key :=
  [.toolPen, .toolRubber, .stylus, .stylus2, .touch]

/-- The calls that declare a device for a digitizer, in order. -/
def declaration (caps : Pen.Capabilities) : List Call :=
  [.builder,
    .identify busI2c vendor 0 caps.firmware.toUInt16,
    .props [directProperty],
    .axes caps.axisRanges,
    .keys declaredKeys,
    .build deviceName]

/-- Makes calls in order and stops at the first that fails. -/
def callAll : List Call → Program interface (Except String Unit)
  | [] => pure (.ok ())
  | c :: rest => do
    match ← call c with
    | .error reason => pure (.error reason)
    | .ok () => callAll rest

/-- The writing end of a virtual device. -/
structure Writer where
  /-- Events since the last `sync` that went through. -/
  pending : List Pen.RawEvent := []
  /-- How many frames have been finished: at most as many as `sync`s were submitted, so a count in sixty-four bits holds it
  until there were 2 ^ 64 of them. -/
  finished : Nat := 0
  deriving DecidableEq, Repr

namespace Writer

/-- Declares the device. -/
def create (caps : Pen.Capabilities) : Program interface (Except String Writer) := do
  match ← callAll (declaration caps) with
  | .error reason => pure (.error reason)
  | .ok () => do
    match (← Program.request (I := interface) .systemName : Option String) with
    | some name => do
      say .info ("Pen device ready: /sys/devices/virtual/input/" ++ name)
      pure (.ok {})
    | none => pure (.ok {})

/-- How often the number of frames is reported. -/
def reportEvery : Nat := 500

/-- What is said when the frame with this number is finished. -/
def announce (finished : Nat) : Program interface Unit := do
  if finished = 1 then
    say .info "Pen events flowing"
  if finished % reportEvery = 0 then
    say .debug s!"Pen frames forwarded: {finished}"

/-- Writes the pending events as one frame. -/
def flush (w : Writer) : Program interface (Except String Writer) := do
  match ← call (.write w.pending) with
  | .error reason => pure (.error reason)
  | .ok () =>
    match ← call .finish with
    | .error reason => pure (.error reason)
    | .ok () => do
      announce (w.finished + 1)
      pure (.ok ⟨[], w.finished + 1⟩)

/-- Takes events in order and writes at each `sync`. A failed write ends the frame there, and nothing is forgotten. -/
def submit (w : Writer) : Pen.Frame → Program interface (Except String Unit × Writer)
  | [] => pure (.ok (), w)
  | event :: rest =>
    match event.raw? with
    | some raw => { w with pending := w.pending ++ [raw] }.submit rest
    | none => do
      match ← w.flush with
      | .error reason => pure (.error reason, w)
      | .ok w => w.submit rest

end Writer

end PenRail.Uinput
