import PenRail.Pen.Digitizer
import PenRail.Rail.Controller
import PenRail.Text.Quoted

/-!
# How a command fails

A command that cannot do its job ends with the cause, and the operator is shown it by its parts. Pieces of text from
elsewhere stand in quotes there; measured times are not shown.
-/

namespace PenRail

/-- A failure of the input layer. -/
def Uinput.detail (reason : String) : String :=
  "Custom \x7b kind: BrokenPipe, error: " ++ Text.quoted reason ++ " \x7d"

def Rail.Error.detail : Rail.Error → String
  | .bus failure => "Bus(" ++ failure.detail ++ ")"
  | .malformed what => "Decode(" ++ what.detail ++ ")"
  | .timeout waits => s!"Timeout \x7b elapsed: _, iterations: {waits} \x7d"
  | .timeoutRailOn failure => "TimeoutRailOn \x7b elapsed: _, source: " ++ failure.detail ++ " \x7d"
  | .pin reason => "GpioFault(" ++ Text.quoted reason ++ ")"
  | .outOfRange millivolts => s!"OutOfRange \x7b mv: {millivolts.toInt} \x7d"

def Pen.Error.detail : Pen.Error → String
  | .bus failure => "Bus(" ++ failure.detail ++ ")"
  | .malformed what => "Decode(" ++ what.detail ++ ")"
  | .refused reason => "Sink(" ++ Uinput.detail reason ++ ")"

namespace Command

/-- Why a command ended without having done its job. -/
inductive Failure
  /-- The address does not fit a transfer. -/
  | address
  | adapter (reason : String)
  | lineSetup (reason : String)
  | dataReady (reason : String)
  | uinput (reason : String)
  | pen (error : Pen.Error)
  | rail (error : Rail.Error)
  deriving DecidableEq, Repr

def Failure.detail : Failure → String
  | .address => "TryFromIntError(())"
  | .adapter reason => reason
  | .lineSetup reason => "Unexpected(" ++ Text.quoted reason ++ ")"
  | .dataReady reason => Text.quoted ("data-ready gpio read failed: " ++ reason)
  | .uinput reason => Uinput.detail reason
  | .pen error => error.detail
  | .rail error => error.detail

end Command

end PenRail
