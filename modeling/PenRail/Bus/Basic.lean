import PenRail.Program

/-!
# One device on a bus

A driver sees its chip as something that takes bytes, gives bytes, or does both in one go. Byte-addressed chips have
registers on top of that: a register is read by an exchange of its number for one byte, written as a pair, and changed
under a mask by a read and, only if the value differs, a write.
-/

namespace PenRail

/-- Raw bytes, in the order in which they go over the wire. -/
abbrev Bytes := List UInt8

namespace Bus

/-- What was not acknowledged. -/
inductive Unacknowledged
  | address
  | data
  | unknown
  deriving DecidableEq, Repr

/-- Why an adapter gave up a transfer. -/
inductive Cause
  | bus
  | arbitrationLoss
  | noAcknowledge (what : Unacknowledged)
  | overrun
  | other
  deriving DecidableEq, Repr

def Unacknowledged.name : Unacknowledged → String
  | .address => "Address"
  | .data => "Data"
  | .unknown => "Unknown"

def Cause.name : Cause → String
  | .bus => "Bus"
  | .arbitrationLoss => "ArbitrationLoss"
  | .noAcknowledge what => "NoAcknowledge(" ++ what.name ++ ")"
  | .overrun => "Overrun"
  | .other => "Other"

/-- A transfer that did not happen, or not in full. -/
inductive Failure
  | short (expected actual : Nat)
  | adapter (cause : Cause)
  deriving DecidableEq, Repr

def Failure.message : Failure → String
  | .short expected actual => s!"short transfer: expected {expected} bytes, got {actual}"
  | .adapter cause => "i2c error: " ++ cause.name

/-- The failure by its parts, as a report to an operator shows it. -/
def Failure.detail : Failure → String
  | .short expected actual => s!"ShortTransfer \x7b expected: {expected}, actual: {actual} \x7d"
  | .adapter cause => "I2c(" ++ cause.name ++ ")"

/-- One indivisible use of the bus. -/
inductive Transfer
  | write (bytes : Bytes)
  | read (length : Nat)
  /-- Writes, then reads without releasing the bus in between. -/
  | exchange (bytes : Bytes) (length : Nat)
  deriving DecidableEq, Repr

/-- What a transfer brings back when it succeeds. -/
abbrev Transfer.Reply : Transfer → Type
  | .write _ => Unit
  | .read _ => Bytes
  | .exchange _ _ => Bytes

/-- A device bound to one address: transfers that bring back their reply or fail. -/
abbrev device : Interface where
  Request := Transfer
  Reply t := Except Failure t.Reply

/-- A program that talks to one device and stops at the first failure it does not handle. -/
abbrev Action (α : Type) := ExceptT Failure (Program device) α

/-- Performs one transfer. -/
def perform (t : Transfer) : Action t.Reply :=
  ExceptT.mk (Program.request (I := device) t)

def readRegister (register : UInt8) : Action UInt8 := do
  match (← perform (.exchange [register] 1) : Bytes) with
  | value :: _ => pure value
  | [] => throw (.short 1 0)

def writeRegister (register value : UInt8) : Action Unit :=
  perform (.write [register, value])

/-- The bits of `value` that `mask` selects, the others as in `current`. -/
def blend (current mask value : UInt8) : UInt8 :=
  (current &&& ~~~mask) ||| (value &&& mask)

/-- Changes the bits that `mask` selects. Nothing is written when the register already holds the wanted value. -/
def updateRegister (register mask value : UInt8) : Action Unit := do
  let current ← readRegister register
  if blend current mask value = current then
    pure ()
  else
    writeRegister register (blend current mask value)

end Bus

end PenRail
