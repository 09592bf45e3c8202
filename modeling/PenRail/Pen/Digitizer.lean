import PenRail.Log
import PenRail.Pen.Latch

/-!
# One pen digitizer

A digitizer is probed once for its limits and then answers data-ready notifications: one bus read, one frame for the
consumer. It reads only while it is open and not suspended. A failed read is dropped, since the next report follows
soon; a report that cannot be decoded, and a frame the consumer refuses, are errors.
-/

namespace PenRail.Pen

/-- Why an operation of the digitizer failed. -/
inductive Error
  | bus (failure : Bus.Failure)
  | malformed (what : Malformed)
  /-- The consumer refused the frame, for the reason given. -/
  | refused (reason : String)
  deriving DecidableEq, Repr

def Error.message : Error → String
  | .bus failure => failure.message
  | .malformed what => what.message
  | .refused reason => "event sink rejected batch: " ++ reason

/-- What an error was caused by, where it is more than a wrapper. -/
def Error.source : Error → Option String
  | .refused reason => some reason
  | _ => none

/-- What a digitizer asks for. -/
inductive Request
  | transfer (t : Bus.Transfer)
  /-- Hands a frame to the consumer, who takes it or gives the reason for refusing it. -/
  | submit (frame : Frame)
  | log (entry : Log.Entry)

abbrev Request.Reply : Request → Type
  | .transfer t => Except Bus.Failure t.Reply
  | .submit _ => Except String Unit
  | .log _ => Unit

abbrev interface : Interface := ⟨Request, Request.Reply⟩

structure Digitizer where
  capabilities : Capabilities
  latch : Latch := {}
  /-- The consumer holds the device open. -/
  opened : Bool := false
  suspended : Bool := false
  deriving DecidableEq, Repr

abbrev Result (α : Type) := Except Error α

/-- What became of a data-ready notification. -/
inductive Notification
  /-- The sample's frame went to the consumer. -/
  | delivered (sample : Sample)
  /-- The report could not be read. -/
  | dropped
  /-- Closed or suspended: nothing was read. -/
  | masked
  deriving DecidableEq, Repr

def say (level : Log.Level) (text : String) : Program interface Unit :=
  Program.request (I := interface) (.log ⟨level, text⟩)

def transfer (t : Bus.Transfer) : Program interface (Except Bus.Failure t.Reply) :=
  Program.request (I := interface) (.transfer t)

def submit (frame : Frame) : Program interface (Except String Unit) :=
  Program.request (I := interface) (.submit frame)

/-- The limits as one line of the log. -/
def Capabilities.summary (caps : Capabilities) : String :=
  s!"x_max:{caps.xMax}, y_max:{caps.yMax}, pressure:{caps.pressureMax}, fw:{caps.firmware}, " ++
    s!"distance: {caps.distanceMax}, phys distance: {caps.distancePhysicalMax}, " ++
    s!"tilt_x_max: {caps.tiltXMax}, tilt_y_max: {caps.tiltYMax}"

namespace Digitizer

/-- Asks the digitizer for its limits. It starts closed. -/
def probe : Program interface (Result Digitizer) := do
  match (← transfer (.exchange queryCommand queryLength) : Except Bus.Failure Bytes) with
  | .error failure => pure (.error (.bus failure))
  | .ok reply =>
    match Capabilities.decode reply with
    | .error what => pure (.error (.malformed what))
    | .ok capabilities => do
      say .debug capabilities.summary
      pure (.ok { capabilities })

/-- Whether notifications are answered. -/
def isDelivering (d : Digitizer) : Bool :=
  d.opened && !d.suspended

/-- Reads one report without touching the tool latch. -/
def readSample : Program interface (Result Sample) := do
  match (← transfer (.read reportLength) : Except Bus.Failure Bytes) with
  | .error failure => pure (.error (.bus failure))
  | .ok reply => pure ((Sample.decode reply).mapError .malformed)

/-- Hands the frame of a sample over. The latch has moved on whether or not the frame is taken. -/
def deliver (d : Digitizer) (sample : Sample) : Program interface (Result Notification × Digitizer) := do
  let after := { d with latch := d.latch.next sample }
  match ← submit (d.latch.frame sample) with
  | .error reason => pure (.error (.refused reason), after)
  | .ok () => pure (.ok (.delivered sample), after)

/-- Answers a data-ready notification. -/
def notify (d : Digitizer) : Program interface (Result Notification × Digitizer) := do
  if !d.isDelivering then
    pure (.ok .masked, d)
  else
    match (← transfer (.read reportLength) : Except Bus.Failure Bytes) with
    | .error failure => do
      say .warn ("Dropping pen report: " ++ failure.message)
      pure (.ok .dropped, d)
    | .ok reply =>
      match Sample.decode reply with
      | .error what => pure (.error (.malformed what), d)
      | .ok sample => d.deliver sample

end Digitizer

/-- Every operation of a digitizer as a value. -/
inductive Method
  | openDevice
  | closeDevice
  | suspend
  | resume
  | capabilities
  | readSample
  | notify
  deriving DecidableEq, Repr

/-- What an operation answers when it succeeds. -/
inductive Answer
  | unit
  | capabilities (caps : Capabilities)
  | sample (sample : Sample)
  | notification (what : Notification)
  deriving DecidableEq, Repr

/-- Carries an operation out. -/
def Digitizer.call (d : Digitizer) : Method → Program interface (Result Answer × Digitizer)
  | .openDevice => pure (.ok .unit, { d with opened := true })
  | .closeDevice => pure (.ok .unit, { d with opened := false })
  | .suspend => pure (.ok .unit, { d with suspended := true })
  | .resume => pure (.ok .unit, { d with suspended := false })
  | .capabilities => pure (.ok (.capabilities d.capabilities), d)
  | .readSample => do
    pure ((← Digitizer.readSample).map .sample, d)
  | .notify => do
    let (result, d) ← d.notify
    pure (result.map .notification, d)

end PenRail.Pen
