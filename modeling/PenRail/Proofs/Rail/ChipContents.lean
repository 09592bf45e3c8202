import PenRail.Proofs.Rail.Plant
import PenRail.Proofs.Rail.Switches
import PenRail.Proofs.Views

/-!
# What the chip holds at each place of a history

On a plant nobody but the controller writes the registers, so a history says what they hold at each of its places: the
initial contents with the writes before it that were carried out. `registers_play` says that this is what the chip holds,
and `told_play` that a mode byte which was read is the one held at the place of the read.
-/

namespace PenRail.Rail

open Bench.Chip (store)
open Bus (RegisterChip)

/-- The bytes that were to be written. -/
def write? (x : Exchange interface) : Option Bytes :=
  match x.request with
  | .transfer (.write bytes) => some bytes
  | _ => none

/-- The registers after an exchange: a write that was carried out is stored. -/
def stored (registers : UInt8 → UInt8) (x : Exchange interface) : UInt8 → UInt8 :=
  match x with
  | ⟨.transfer (.write [register, value]), .ok _⟩ => store registers register value
  | _ => registers

/-- The registers after a history. -/
def registersAfter (registers : UInt8 → UInt8) (h : History interface) : UInt8 → UInt8 :=
  h.foldl stored registers

section
variable (registers : UInt8 → UInt8)

@[simp] theorem registersAfter_nil : registersAfter registers [] = registers := rfl

@[simp] theorem registersAfter_cons (x : Exchange interface) (h : History interface) :
    registersAfter registers (x :: h) = registersAfter (stored registers x) h := rfl

@[simp] theorem registersAfter_append (h₁ h₂ : History interface) :
    registersAfter registers (h₁ ++ h₂) = registersAfter (registersAfter registers h₁) h₂ :=
  List.foldl_append

theorem stored_of_no_write {x : Exchange interface} (hx : write? x = none) : stored registers x = registers := by
  obtain ⟨q, r⟩ := x
  cases q with
  | powerGood | delay | log => rfl
  | transfer t =>
    cases t with
    | read | exchange => rfl
    | write => cases hx

theorem stored_of_error (bytes : Bytes) (failure : Bus.Failure) :
    stored registers ⟨.transfer (.write bytes), .error failure⟩ = registers := by
  rcases bytes with _ | ⟨register, _ | ⟨value, _ | _⟩⟩ <;> rfl

/-- What is said changes no register. -/
theorem registersAfter_acts (h : History interface) : registersAfter registers (acts h) = registersAfter registers h := by
  induction h generalizing registers with
  | nil => rfl
  | cons x h ih =>
    obtain ⟨q, r⟩ := x
    cases q with
    | log entry => exact ih registers
    | powerGood | delay => exact ih registers
    | transfer t => exact ih (stored registers ⟨.transfer t, r⟩)

end

/-! ## On a plant -/

theorem registers_answer (q : Request) (w : Plant) :
    (Plant.answer q w).2.registers = stored w.registers ⟨q, (Plant.answer q w).1⟩ := by
  cases q with
  | powerGood | delay | log => rfl
  | transfer t =>
    cases t with
    | read | exchange => exact RegisterChip.answerRead_registers _ _ w.chip
    | write bytes =>
      simp only [Plant.answer, Plant.registers, RegisterChip.answer, RegisterChip.answerWrite]
      cases w.chip.fates 0 with
      | fails failure => exact (stored_of_error _ _ _).symm
      | carriedOut | empty => rcases bytes with _ | ⟨register, _ | ⟨value, _ | _⟩⟩ <;> rfl

/-- The chip holds what the history says. -/
theorem registers_play {α : Type} (p : Program interface α) (w : Plant) :
    (p.play Plant.answer w).state.registers = registersAfter w.registers (p.play Plant.answer w).history :=
  Program.view_play registers_answer p w

/-- A mode byte that was read is the one in these registers. -/
def Tells (registers : UInt8 → UInt8) (x : Exchange interface) : Prop :=
  ∀ mode rest, x = modeRead (.ok (mode :: rest)) → mode = registers Register.operationMode

/-- Each mode byte that was read is the one that the chip held there. -/
def Told (registers : UInt8 → UInt8) (h : History interface) : Prop :=
  Throughout (fun earlier x _ => Tells (registersAfter registers earlier) x) h

theorem told_append {registers : UInt8 → UInt8} {h₁ h₂ : History interface} :
    Told registers (h₁ ++ h₂) ↔ Told registers h₁ ∧ Told (registersAfter registers h₁) h₂ := by
  simp only [Told, throughout_append, registersAfter_append]

theorem tells_answer (q : Request) (w : Plant) : Tells w.registers ⟨q, (Plant.answer q w).1⟩ := by
  intro mode rest h
  obtain rfl : q = _ := congrArg Exchange.request h
  simp only [modeRead, Exchange.mk.injEq, heq_eq_eq, true_and] at h
  simp only [Plant.answer, RegisterChip.answer, RegisterChip.answerRead] at h
  cases hfate : w.chip.fates 0 with
  | fails | empty => simp [hfate] at h
  | carriedOut =>
    simp only [hfate, RegisterChip.replyTo, RegisterChip.block_one, Except.ok.injEq, List.cons.injEq] at h
    exact h.1.symm

theorem told_play {α : Type} (p : Program interface α) (w : Plant) : Told w.registers (p.play Plant.answer w).history :=
  Program.throughout_play registers_answer tells_answer p w

/-! ## Without the log -/

/-- The places of the acts are the places of the history where something is done. -/
theorem throughout_acts {P : History interface → Exchange interface → History interface → Prop} {h : History interface} :
    Throughout P (acts h) ↔ Throughout (fun earlier x later => isAct x → P (acts earlier) x (acts later)) h := by
  induction h generalizing P with
  | nil => simp
  | cons x h ih =>
    by_cases hx : isAct x
    · have hcons (earlier : History interface) : acts (x :: earlier) = x :: acts earlier := List.filter_cons_of_pos hx
      simp [hcons, hx, ih]
    · have hcons (earlier : History interface) : acts (x :: earlier) = acts earlier := List.filter_cons_of_neg hx
      simp [hcons, hx, ih]

theorem Told.acts {registers : UInt8 → UInt8} {h : History interface} (told : Told registers h) :
    Told registers (acts h) := by
  refine throughout_acts.2 (told.mono fun earlier x _ hx _ => ?_)
  rwa [registersAfter_acts]

end PenRail.Rail
