import PenRail.Host
import PenRail.Text.Digits

/-!
# What scripted devices saw

A trace is the list of everything that reached a device, in order, each attempt marked when it failed. As text, a run of
waiting between two other lines is a single line of totals.
-/

namespace PenRail.Bench

/-- Time passing, or a line that is looked at. -/
inductive Wait
  | pinRead
  | delay (nanoseconds : Nat)
  | sleep (nanoseconds : Nat)
  deriving DecidableEq, Repr

/-- Which device a transfer is for. -/
inductive Place
  /-- The only one there is. -/
  | direct
  | addressed (address : UInt8)
  | adapter (path : String) (address : UInt8)
  deriving DecidableEq, Repr

inductive Event
  | wait (w : Wait)
  | transfer (place : Place) (t : Bus.Transfer) (failed : Bool)
  /-- A transfer to an address at which no device answers. -/
  | nobody (path : String) (address : UInt8)
  | uinput (call : Uinput.Call) (failed : Bool)
  | openAdapter (path : String) (failed : Bool)
  | gpio (number : UInt64) (step : Host.LineSetup) (failed : Bool)
  /-- A script had nothing more to give. -/
  | endOfScript
  deriving DecidableEq, Repr

abbrev Trace := List Event

def Place.label : Place → String
  | .direct => ""
  | .addressed address => s!"@{address} "
  | .adapter path address => s!"{path}@{address} "

def transferText : Bus.Transfer → String
  | .write bytes => "w " ++ Text.hexBytes bytes
  | .read length => s!"r {length}"
  | .exchange bytes length => s!"wr {Text.hexBytes bytes} {length}"

def setupText : Host.LineSetup → String
  | .exportLine => "export"
  | .direction => "direction in"
  | .activeLow => "active_low 0"

/-- A word followed by a list of items, each after a space. -/
def items {α : Type} (word : String) (text : α → String) (list : List α) : String :=
  list.foldl (fun line a => line ++ " " ++ text a) word

def callText : Uinput.Call → String
  | .builder => "builder"
  | .identify bus vendor product version => s!"id bus={bus} vendor={vendor} product={product} version={version}"
  | .props codes => items "props" toString codes
  | .axes ranges => items "axes" (fun r => s!"{r.axis.code}:{r.min.toInt}..{r.max.toInt}") ranges
  | .keys keys => items "keys" (fun k => toString k.code) keys
  | .build name => "build " ++ name
  | .write events => items "write" (fun e => s!"{e.type}:{e.code}:{e.value.toInt}") events
  | .finish => "finish"

/-- Totals of a run of waiting. -/
structure Waited where
  reads : Nat := 0
  delays : Nat := 0
  delayTime : Nat := 0
  sleeps : Nat := 0
  sleepTime : Nat := 0
  deriving DecidableEq, Repr

def Waited.add (t : Waited) : Wait → Waited
  | .pinRead => { t with reads := t.reads + 1 }
  | .delay nanoseconds => { t with delays := t.delays + 1, delayTime := t.delayTime + nanoseconds }
  | .sleep nanoseconds => { t with sleeps := t.sleeps + 1, sleepTime := t.sleepTime + nanoseconds }

def Waited.line (t : Waited) : String :=
  s!"wait reads={t.reads} delays={t.delays} delay_ns={t.delayTime} sleeps={t.sleeps} sleep_ns={t.sleepTime}"

/-- Whether an outcome is a failure. -/
def failed {ε α : Type} : Except ε α → Bool
  | .ok _ => false
  | .error _ => true

/-- What is put behind an attempt that failed. -/
def mark (failed : Bool) : String :=
  if failed then " !" else ""

/-- An event as a line, or the wait that it is part of. -/
def Event.line : Event → String ⊕ Wait
  | .wait w => .inr w
  | .transfer place t failed => .inl (place.label ++ transferText t ++ mark failed)
  | .nobody path address => .inl s!"{path}@{address} !"
  | .uinput call failed => .inl ("uinput " ++ callText call ++ mark failed)
  | .openAdapter path failed => .inl ("open " ++ path ++ mark failed)
  | .gpio number step failed => .inl (s!"gpio {number} {setupText step}" ++ mark failed)
  | .endOfScript => .inl "end of script"

/-- The lines of a trace, a run of waiting `waited` already behind. -/
def Trace.linesAfter (waited : Option Waited) : Trace → List String
  | [] => waited.toList.map Waited.line
  | event :: rest =>
    match event.line with
    | .inr w => Trace.linesAfter (some ((waited.getD {}).add w)) rest
    | .inl line => waited.toList.map Waited.line ++ line :: Trace.linesAfter none rest

/-- A trace as lines of text. -/
def Trace.lines (t : Trace) : List String :=
  Trace.linesAfter none t

end PenRail.Bench
