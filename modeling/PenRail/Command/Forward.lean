import PenRail.Command.DataReady
import PenRail.Process

/-!
# Forwarding the pen

Reports go from the digitizer to a virtual pen device, one frame for each, until the data-ready line or the device
fails. A read that fails and a report that cannot be understood are passed over. A round of the process looks once for a
report and forwards it if it is there.
-/

namespace PenRail.Command

open Config (DigitizerSettings)

/-- Answers a digitizer whose frames nobody takes. -/
def Place.answerReader (place : Place) : (q : Pen.Request) → Program interface q.Reply
  | .transfer t => place.transfer t
  | .submit _ => pure (.ok ())
  | .log entry => Program.request (I := interface) (.log entry)

/-- Finds the adapter of the digitizer and probes it. -/
def reachDigitizer (s : DigitizerSettings) : Task (Place × Pen.Digitizer) := do
  let place ← Place.reach s.bus s.address
  let digitizer ← attempt .pen (Pen.Digitizer.probe.under place.answerReader)
  pure (place, digitizer)

def answerUinput : (q : Uinput.Request) → Program interface q.Reply
  | .call c => host (.uinput c)
  | .systemName => host .systemName
  | .log entry => Program.request (I := interface) (.log entry)

/-- Answers a digitizer whose frames are written to the virtual device. -/
def Place.answerForwarder (place : Place) : (q : Pen.Request) → StateT Uinput.Writer (Program interface) q.Reply
  | .transfer t => place.transfer t
  | .submit frame => fun writer => (writer.submit frame).under answerUinput
  | .log entry => Program.request (I := interface) (.log entry)

/-- Both ends of the forwarding, as they are between two rounds. -/
structure Forwarder where
  place : Place
  digitizer : Pen.Digitizer
  writer : Uinput.Writer
  deriving DecidableEq, Repr

namespace Forwarder

/-- How long others get to notice the new device before the first event, in nanoseconds. -/
def attachTime : Nat := 1000 * Rail.millisecond

/-- When reports are looked for, in words. -/
def schedule (s : DigitizerSettings) : String :=
  match s.irqLine with
  | some line => s!"gpio {line}"
  | none => s!"poll every {s.pollInterval}ms"

def start (s : DigitizerSettings) : Task Forwarder := do
  say .info s!"rm-periph starting (digitizer {s.bus} @ 0x{Text.hex2 s.address.toNat}, data-ready {schedule s})"
  let (place, digitizer) ← reachDigitizer s
  let caps := digitizer.capabilities
  say .info s!"Digitizer fw {caps.firmware} ({caps.xMax}x{caps.yMax}, pressure {caps.pressureMax})"
  say .info "Creating pen uinput device"
  let writer ← attempt .uinput ((Uinput.Writer.create caps).under answerUinput)
  host (.sleep attachTime)
  say .info "Pen forwarding started"
  (DataReady.ofSettings s).setUp
  pure ⟨place, { digitizer with opened := true }, writer⟩

/-- Answers one notification. Only the device can make it fail. -/
def forward (f : Forwarder) : Task Forwarder := do
  let ((result, digitizer), writer) ← f.digitizer.notify.under f.place.answerForwarder |>.run f.writer
  match result with
  | .ok _ => pure ()
  | .error (.malformed what) => say .warn ("Skipping malformed pen report: " ++ what.message)
  | .error error => throw (.pen error)
  pure ⟨f.place, digitizer, writer⟩

/-- Looks once for a report and forwards it if it is there. -/
def round (s : DigitizerSettings) (f : Forwarder) : Task Forwarder := do
  if ← (DataReady.ofSettings s).look then
    f.forward
  else
    pure f

end Forwarder

/-- A round that failed is the last one. -/
def Turn.ofTask {σ : Type} (t : Task σ) : Program interface (Turn σ (Except Failure Unit)) := do
  match ← t.run with
  | .ok s => pure (.again s)
  | .error failure => pure (.over (.error failure))

/-- The command that forwards the pen. It ends only by failing. -/
def forward (s : DigitizerSettings) : Process interface (Except Failure Unit) where
  State := Forwarder
  start := Turn.ofTask (Forwarder.start s)
  round f := Turn.ofTask (f.round s)

end PenRail.Command
