import PenRail.Bench.Chip
import PenRail.Proofs.History

/-!
# A chip of registers on a bus that fails at will

The chip holds a byte in each register, and nobody but the driver writes them. What becomes of each transfer is settled
beforehand by a sequence without end, so a statement about all chips ranges over every pattern of failures. A transfer
that fails changes no register.

`registers_updateRegister` says a change under a mask is all or nothing.
-/

namespace PenRail.Bus

/-- What becomes of one transfer. -/
inductive Fate
  | carriedOut
  | fails (failure : Failure)
  /-- What is written is written, but a read brings back no byte. -/
  | empty
  deriving DecidableEq, Repr

structure RegisterChip where
  registers : UInt8 → UInt8
  /-- The fates of the transfers to come, the next one first. -/
  fates : Nat → Fate

namespace RegisterChip

open Bench.Chip (store block)

/-- One transfer later. -/
def later (c : RegisterChip) : RegisterChip :=
  { c with fates := fun n => c.fates (n + 1) }

/-- A pair of bytes is a register and its new value; other bytes change nothing. -/
def written (c : RegisterChip) : Bytes → RegisterChip
  | [register, value] => { c with registers := store c.registers register value }
  | _ => c

/-- One byte asks for registers from there on; anything else is answered with zeros. -/
def replyTo (c : RegisterChip) (bytes : Bytes) (length : Nat) : Bytes :=
  match bytes with
  | [register] => block c.registers register length
  | _ => List.replicate length 0

def answerWrite (bytes : Bytes) (c : RegisterChip) : Except Failure Unit × RegisterChip :=
  match c.fates 0 with
  | .fails failure => (.error failure, c.later)
  | .carriedOut | .empty => (.ok (), c.later.written bytes)

def answerRead (bytes : Bytes) (length : Nat) (c : RegisterChip) : Except Failure Bytes × RegisterChip :=
  match c.fates 0 with
  | .fails failure => (.error failure, c.later)
  | .carriedOut => (.ok (c.replyTo bytes length), c.later)
  | .empty => (.ok [], c.later)

def answer : Answerer device RegisterChip
  | .write bytes => answerWrite bytes
  | .read length => answerRead [] length
  | .exchange bytes length => answerRead bytes length

@[simp] theorem later_registers (c : RegisterChip) : c.later.registers = c.registers := rfl

theorem block_one (registers : UInt8 → UInt8) (register : UInt8) : block registers register 1 = [registers register] := by
  simp [block]

theorem store_self (registers : UInt8 → UInt8) (register : UInt8) :
    store registers register (registers register) = registers := by
  funext r
  by_cases h : r = register <;> simp [store, h]

@[simp] theorem store_same (registers : UInt8 → UInt8) (register value : UInt8) :
    store registers register value register = value := by
  simp [store]

theorem store_of_ne (registers : UInt8 → UInt8) (value : UInt8) {register r : UInt8} (h : r ≠ register) :
    store registers register value r = registers r := by
  simp [store, h]

theorem answerRead_registers (bytes : Bytes) (length : Nat) (c : RegisterChip) :
    (answerRead bytes length c).2.registers = c.registers := by
  unfold answerRead
  split <;> rfl

/-- Writing a register leaves all others alone, whatever becomes of the transfer. -/
theorem answerWrite_other (c : RegisterChip) (value : UInt8) {register r : UInt8} (h : r ≠ register) :
    (answerWrite [register, value] c).2.registers r = c.registers r := by
  unfold answerWrite
  split
  · rfl
  · exact store_of_ne _ _ h
  · exact store_of_ne _ _ h

/-- One transfer uses up one fate. -/
theorem answer_fates (t : Transfer) (c : RegisterChip) : (answer t c).2.fates = fun n => c.fates (n + 1) := by
  have hread (bytes : Bytes) (length : Nat) : (answerRead bytes length c).2.fates = fun n => c.fates (n + 1) := by
    unfold answerRead
    split <;> rfl
  cases t with
  | read length => exact hread [] length
  | exchange bytes length => exact hread bytes length
  | write bytes =>
    have hwritten : (c.later.written bytes).fates = fun n => c.fates (n + 1) := by
      unfold written
      split <;> rfl
    simp only [answer, answerWrite]
    split
    · rfl
    · exact hwritten
    · exact hwritten

/-- What the next register read ends with. -/
def readOutcome (c : RegisterChip) (register : UInt8) : Except Failure UInt8 :=
  match c.fates 0 with
  | .carriedOut => .ok (c.registers register)
  | .fails failure => .error failure
  | .empty => .error (.short 1 0)

/-- What the next write ends with. -/
def writeOutcome (c : RegisterChip) : Except Failure Unit :=
  match c.fates 0 with
  | .carriedOut | .empty => .ok ()
  | .fails failure => .error failure

theorem readRegister_run (register : UInt8) :
    (readRegister register).run = Program.ask (I := device) (.exchange [register] 1) fun
      | .error failure => .done (.error failure)
      | .ok (value :: _) => .done (.ok value)
      | .ok [] => .done (.error (.short 1 0)) := by
  rw [readRegister, ExceptT.run_bind]
  refine congrArg (Program.ask (I := device) (.exchange [register] 1)) (funext fun r => ?_)
  rcases r with f | (_ | ⟨v, l⟩) <;> rfl

theorem writeRegister_run (register value : UInt8) :
    (writeRegister register value).run = Program.request (I := device) (.write [register, value]) := rfl

theorem updateRegister_run (register mask value : UInt8) :
    (updateRegister register mask value).run = (readRegister register).run >>= fun
      | .error failure => .done (.error failure)
      | .ok current =>
        if blend current mask value = current then .done (.ok ())
        else (writeRegister register (blend current mask value)).run := by
  rw [updateRegister, ExceptT.run_bind]
  congr 1
  funext r
  rcases r with f | v
  · rfl
  · simp only []
    split <;> rfl

/-- A register read is one exchange, and leaves the registers alone. -/
theorem play_readRegister (c : RegisterChip) (register : UInt8) :
    (readRegister register).run.play answer c =
      ⟨c.readOutcome register, c.later, [⟨.exchange [register] 1, (answerRead [register] 1 c).1⟩]⟩ := by
  rw [readRegister_run, Program.play_ask]
  cases h : c.fates 0 <;> simp [answer, answerRead, readOutcome, h, replyTo, block_one, Played.behind]

theorem play_writeRegister (c : RegisterChip) (register value : UInt8) :
    (writeRegister register value).run.play answer c =
      ⟨c.writeOutcome, (answerWrite [register, value] c).2, [⟨.write [register, value], c.writeOutcome⟩]⟩ := by
  rw [writeRegister_run, Program.play_request]
  cases h : c.fates 0 <;> simp [answer, answerWrite, writeOutcome, h]

/-- A change under a mask is all or nothing: it succeeds and the register holds the selected bits of `value` and its own
others, or it fails and no register has changed. -/
theorem registers_updateRegister (c : RegisterChip) (register mask value : UInt8) :
    let r := (updateRegister register mask value).run.play answer c
    (r.result = .ok () ∧ r.state.registers = store c.registers register (blend (c.registers register) mask value)) ∨
      ∃ failure, r.result = .error failure ∧ r.state.registers = c.registers := by
  rw [updateRegister_run, Program.play_bind, play_readRegister]
  cases hread : c.fates 0 with
  | fails failure => exact .inr ⟨failure, by simp [readOutcome, hread]⟩
  | empty => exact .inr ⟨.short 1 0, by simp [readOutcome, hread]⟩
  | carriedOut =>
    simp only [readOutcome, hread]
    by_cases hsame : blend (c.registers register) mask value = c.registers register
    · exact .inl (by simp [hsame, store_self])
    · simp only [hsame, if_false, play_writeRegister]
      cases hwrite : c.fates 1 with
      | fails failure => exact .inr ⟨failure, by simp [writeOutcome, answerWrite, later, hwrite]⟩
      | carriedOut | empty => exact .inl (by simp [writeOutcome, answerWrite, written, later, hwrite])

/-- On a bus that works, the change succeeds. -/
theorem updateRegister_of_works {c : RegisterChip} (h : ∀ i, c.fates i = .carriedOut) (register mask value : UInt8) :
    ((updateRegister register mask value).run.play answer c).result = .ok () := by
  rw [updateRegister_run, Program.play_bind, play_readRegister]
  simp only [readOutcome, h, Played.behind_result]
  by_cases hsame : blend (c.registers register) mask value = c.registers register
  · rw [if_pos hsame]
    rfl
  · rw [if_neg hsame, play_writeRegister]
    simp only [writeOutcome, later, h]

end RegisterChip

end PenRail.Bus
