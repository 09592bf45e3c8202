import PenRail.Bench.Chip
import PenRail.Bench.FileTree
import PenRail.Bench.InputLayer
import PenRail.Bench.Messages
import PenRail.Bench.Trace
import PenRail.Run

/-!
# A scripted machine

Adapters with chips, input lines, the input layer and two streams of text. A script is finite: where a program waits for
something that will never come, a report or a level of a line, the run is cut off at that point and keeps what it has
done.
-/

namespace PenRail.Bench

/-- The script of an input line. -/
structure Line where
  levels : List (Except String Bool) := []
  /-- The level once the script is used up; without one the script ends there. -/
  idle : Option Bool := none
  /-- Reads are inverted, until that is switched off. -/
  activeLow : Bool := false
  setupFailure : Option (Host.LineSetup × String) := none

namespace Line

/-- One reading, and the line afterwards; nothing at the end of the script. -/
def read (l : Line) : Option (Except String Bool × Line) :=
  match l.levels with
  | level :: rest => some (level.map (· != l.activeLow), { l with levels := rest })
  | [] => l.idle.map fun level => (.ok (level != l.activeLow), l)

/-- The line after a setup step that worked. -/
def done (l : Line) : Host.LineSetup → Line
  | .activeLow => { l with activeLow := false }
  | .exportLine | .direction => l

/-- The outcome of a setup step, and the line afterwards. -/
def setUp (l : Line) (step : Host.LineSetup) : Except String Unit × Line :=
  match l.setupFailure with
  | some (at_, reason) => if step = at_ then (.error reason, l) else (.ok (), l.done step)
  | none => (.ok (), l.done step)

end Line

structure World where
  adapters : List (String × List (UInt8 × Chip)) := []
  lines : List (UInt64 × Line) := []
  inputLayer : InputLayer := {}
  trace : Trace := []
  /-- Lines printed so far. -/
  output : List String := []
  /-- The message stream so far. -/
  messages : String := ""

/-- What a run on a scripted machine does; it may be cut off. -/
abbrev Scripted := OptionT (StateM World)

namespace World

/-- Changes the entry of a key. -/
def put {κ α : Type} [BEq κ] (key : κ) (a : α) : List (κ × α) → List (κ × α)
  | [] => [(key, a)]
  | (k, b) :: rest => if k == key then (k, a) :: rest else (k, b) :: put key a rest

def chip? (w : World) (path : String) (address : UInt8) : Option Chip := do
  (← w.adapters.lookup path).lookup address

def setChip (w : World) (path : String) (address : UInt8) (chip : Chip) : World :=
  { w with adapters := put path (put address chip ((w.adapters.lookup path).getD [])) w.adapters }

def line (w : World) (number : UInt64) : Line :=
  (w.lines.lookup number).getD {}

def setLine (w : World) (number : UInt64) (line : Line) : World :=
  { w with lines := put number line w.lines }

def record (event : Event) : Scripted Unit :=
  modify fun w => { w with trace := w.trace ++ [event] }

/-- The run is cut off here. -/
def cutOff {α : Type} : Scripted α := do
  record .endOfScript
  failure

/-- A read with nothing left to bring back. -/
def isStarved (chip : Chip) : Bus.Transfer → Bool
  | .read _ => chip.replies.isEmpty
  | _ => false

def transfer (path : String) (q : Bus.Addressed) : Scripted (Except Bus.Cause q.transfer.Reply) := do
  match (← get).chip? path q.address with
  | none => do
    record (.nobody path q.address)
    pure (.error (.noAcknowledge .address))
  | some chip =>
    if isStarved chip q.transfer then
      cutOff
    else
      let (outcome, chip) := chip.answerAdapter q.transfer
      modify fun w => w.setChip path q.address chip
      record (.transfer (.adapter path q.address) q.transfer (failed outcome))
      pure outcome

def answer : (q : Host.Request) → Scripted q.Reply
  | .openAdapter path => do
    let known := ((← get).adapters.lookup path).isSome
    record (.openAdapter path !known)
    pure (if known then .ok () else .error "NoSuchAdapter")
  | .transfer path q => transfer path q
  | .setUpLine number step => do
    let (outcome, line) := ((← get).line number).setUp step
    modify fun w => w.setLine number line
    record (.gpio number step (failed outcome))
    pure outcome
  | .readLine number => do
    record (.wait .pinRead)
    match ((← get).line number).read with
    | none => cutOff
    | some (level, line) => do
      modify fun w => w.setLine number line
      pure level
  | .uinput call => do
    let (outcome, inputLayer) := (← get).inputLayer.answer call
    modify fun w => { w with inputLayer }
    record (.uinput call (failed outcome))
    pure outcome
  | .systemName => do
    pure (← get).inputLayer.systemName
  | .delay nanoseconds => record (.wait (.delay nanoseconds))
  | .sleep nanoseconds => record (.wait (.sleep nanoseconds))
  | .print text => modify fun w => { w with output := w.output ++ text.splitOn "\n" }
  | .report text => modify fun w => { w with messages := w.messages ++ text }
  | .usage asked => do
    if asked then
      modify fun w => { w with output := w.output ++ ["<help>"] }

/-- How many rounds a program can go before it has used the script up. A program that goes on after that waits on a line whose
idle level never lets it through. -/
def patience (w : World) : Nat :=
  let replies := w.adapters.flatMap fun (_, chips) => chips.flatMap fun (_, chip) => chip.replies
  let levels := w.lines.flatMap fun (_, line) => line.levels
  replies.length + levels.length + 1

end World

/-- How a run on a scripted machine ended. -/
inductive Ending
  | exit (code : UInt8)
  | endOfScript
  /-- It does not end. -/
  | stillRunning
  deriving DecidableEq, Repr

/-- The program on a scripted machine. -/
def World.run (w : World) (env : Environment) (files : FileTree) (arguments : List String) : Ending × World :=
  let process := PenRail.run env files.files arguments
  match (process.unroll w.patience).under World.answer |>.run w with
  | (none, w) => (.endOfScript, w)
  | (some (.over code), w) => (.exit code, w)
  | (some (.again _), w) => (.stillRunning, w)

end PenRail.Bench
