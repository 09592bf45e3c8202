import PenRail.Bus.Addressed

/-!
# A scripted chip

256 byte registers, and a queue of replies for everything that is not a register read. Transfers can be made to fail:
writes and register reads after a number of successes, queued replies one by one. A transfer that fails changes no
register.
-/

namespace PenRail.Bench

/-- What the chip's queue holds for one read. -/
inductive Reply
  | bytes (bytes : Bytes)
  | fails (failure : Bus.Failure)
  deriving DecidableEq, Repr

structure Chip where
  registers : UInt8 → UInt8 := fun _ => 0
  replies : List Reply := []
  /-- How many more writes succeed; `none` is without limit. -/
  writesLeft : Option Nat := none
  /-- How many more register reads succeed. -/
  registerReadsLeft : Option Nat := none
  /-- Register reads bring back nothing. -/
  emptyRegisterReads : Bool := false

namespace Chip

/-- The registers after one of them was written. -/
def store (registers : UInt8 → UInt8) (register value : UInt8) : UInt8 → UInt8 :=
  fun r => if r = register then value else registers r

/-- Registers from `register` on, going round after the last. -/
def block (registers : UInt8 → UInt8) (register : UInt8) (length : Nat) : Bytes :=
  (List.range length).map fun i => registers (register + UInt8.ofNat i)

/-- Uses up one success, if there is one left. -/
def spend : Option Nat → Option (Option Nat)
  | none => some none
  | some 0 => none
  | some (n + 1) => some (some n)

def unacknowledged (what : Bus.Unacknowledged) : Bus.Failure :=
  .adapter (.noAcknowledge what)

def write (c : Chip) (bytes : Bytes) : Except Bus.Failure Unit × Chip :=
  match spend c.writesLeft with
  | none => (.error (unacknowledged .data), c)
  | some left =>
    match bytes with
    | [register, value] => (.ok (), { c with registers := store c.registers register value, writesLeft := left })
    | _ => (.ok (), { c with writesLeft := left })

/-- Takes the next reply off the queue. -/
def nextReply (c : Chip) : Except Bus.Failure Bytes × Chip :=
  match c.replies with
  | [] => (.error (unacknowledged .address), c)
  | .bytes bytes :: rest => (.ok bytes, { c with replies := rest })
  | .fails failure :: rest => (.error failure, { c with replies := rest })

def readRegisters (c : Chip) (register : UInt8) (length : Nat) : Except Bus.Failure Bytes × Chip :=
  match spend c.registerReadsLeft with
  | none => (.error (unacknowledged .data), c)
  | some left =>
    (.ok (if c.emptyRegisterReads then [] else block c.registers register length), { c with registerReadsLeft := left })

/-- What the chip answers, and the chip afterwards. -/
def answer (c : Chip) : (t : Bus.Transfer) → Except Bus.Failure t.Reply × Chip
  | .write bytes => c.write bytes
  | .read _ => c.nextReply
  | .exchange [register] length => c.readRegisters register length
  | .exchange _ _ => c.nextReply

/-- The same chip behind an adapter, which has no name for a reply that is too short. -/
def answerAdapter (c : Chip) (t : Bus.Transfer) : Except Bus.Cause t.Reply × Chip :=
  match c.answer t with
  | (.ok reply, c) => (.ok reply, c)
  | (.error (.adapter cause), c) => (.error cause, c)
  | (.error (.short _ _), c) => (.error .other, c)

/-- A change to the script of a chip; what it leaves out stays as it is. -/
structure Change where
  registers : List (UInt8 × UInt8) := []
  /-- Appended to the queue. -/
  replies : List Reply := []
  writesLeft : Option (Option Nat) := none
  registerReadsLeft : Option (Option Nat) := none
  emptyRegisterReads : Option Bool := none

def change (c : Chip) (by_ : Change) : Chip where
  registers := by_.registers.foldl (fun registers (register, value) => store registers register value) c.registers
  replies := c.replies ++ by_.replies
  writesLeft := by_.writesLeft.getD c.writesLeft
  registerReadsLeft := by_.registerReadsLeft.getD c.registerReadsLeft
  emptyRegisterReads := by_.emptyRegisterReads.getD c.emptyRegisterReads

end Chip

end PenRail.Bench
