import PenRail.Bus.Addressed
import PenRail.Uinput.Writer

/-!
# The machine that commands run on

All that a command can ask of its surroundings: adapters, input lines, the input layer, time, and two streams of text.
-/

namespace PenRail.Host

/-- How an input line is made ready for reading. Its own inversion is switched off, so that it reads as the wire is. -/
inductive LineSetup
  | exportLine
  | direction
  | activeLow
  deriving DecidableEq, Repr

inductive Request
  | openAdapter (path : String)
  | transfer (path : String) (q : Bus.Addressed)
  | setUpLine (line : UInt64) (step : LineSetup)
  | readLine (line : UInt64)
  | uinput (call : Uinput.Call)
  /-- The name under which the system lists the input device, if it can be found. -/
  | systemName
  /-- Waits for a time that a chip needs, in nanoseconds. -/
  | delay (nanoseconds : Nat)
  /-- Waits before looking again, in nanoseconds. -/
  | sleep (nanoseconds : Nat)
  | print (line : String)
  /-- Adds text to the stream for messages; lines end where the text says so. -/
  | report (text : String)
  /-- Shows how the program is used, because that was asked for or because it was not understood. -/
  | usage (asked : Bool)

/-- What can fail gives the reason as text, a transfer its cause. -/
abbrev Request.Reply : Request → Type
  | .openAdapter _ => Except String Unit
  | .transfer _ q => Except Bus.Cause q.transfer.Reply
  | .setUpLine _ _ => Except String Unit
  | .readLine _ => Except String Bool
  | .uinput _ => Except String Unit
  | .systemName => Option String
  | .delay _ | .sleep _ | .print _ | .report _ | .usage _ => Unit

abbrev interface : Interface := ⟨Request, Request.Reply⟩

end PenRail.Host
