import PenRail.Uinput.Writer

/-!
# A scripted input layer

Declaring a device can be made to fail at one of its stages; writes and finishes fail one by one as their lists say, and
succeed once the lists are used up.
-/

namespace PenRail.Bench

/-- The stages of a declaration. -/
inductive Stage
  | builder
  | identify
  | props
  | axes
  | keys
  | build
  deriving DecidableEq, Repr

def Stage.ofCall : Uinput.Call → Option Stage
  | .builder => some .builder
  | .identify .. => some .identify
  | .props _ => some .props
  | .axes _ => some .axes
  | .keys _ => some .keys
  | .build _ => some .build
  | .write _ | .finish => none

structure InputLayer where
  setupFailure : Option (Stage × String) := none
  writeFailures : List (Option String) := []
  finishFailures : List (Option String) := []
  systemName : Option String := none
  deriving Repr

namespace InputLayer

/-- The outcome that a script gives next, and what is left of it. -/
def consume : List (Option String) → Except String Unit × List (Option String)
  | [] => (.ok (), [])
  | none :: rest => (.ok (), rest)
  | some reason :: rest => (.error reason, rest)

/-- The outcome of a stage of the declaration. -/
def declare (d : InputLayer) (stage : Option Stage) : Except String Unit :=
  match d.setupFailure with
  | some (at_, reason) => if stage = some at_ then .error reason else .ok ()
  | none => .ok ()

/-- What the input layer answers to a call, and its script afterwards. -/
def answer (d : InputLayer) : Uinput.Call → Except String Unit × InputLayer
  | .write _ =>
    let (outcome, rest) := consume d.writeFailures
    (outcome, { d with writeFailures := rest })
  | .finish =>
    let (outcome, rest) := consume d.finishFailures
    (outcome, { d with finishFailures := rest })
  | call => (d.declare (Stage.ofCall call), d)

end InputLayer

end PenRail.Bench
