import PenRail.Proofs.Rail.Moves

/-!
# The rail's surroundings

A plant is what a controller works on: the chip with its registers, and the power-good line with all the readings it will
ever give. Waiting and log entries leave it as it is. `registers_setOnOff` says what becomes of the on/off bit, and
`registers_of_spares` that a register to which no write is tried keeps its content.
-/

namespace PenRail.Rail

open Bench.Chip (store)
open Bus (RegisterChip)

structure Plant where
  chip : RegisterChip
  /-- What the power-good line will read, the next reading first. -/
  levels : Nat → Except String Bool

namespace Plant

/-- One reading of the line later. -/
def looked (w : Plant) : Plant :=
  { w with levels := fun n => w.levels (n + 1) }

def answer : Answerer interface Plant
  | .transfer t => fun w => ((RegisterChip.answer t w.chip).1, { w with chip := (RegisterChip.answer t w.chip).2 })
  | .powerGood => fun w => (w.levels 0, w.looked)
  | .delay _ => fun w => ((), w)
  | .log _ => fun w => ((), w)

def registers (w : Plant) : UInt8 → UInt8 :=
  w.chip.registers

/-- Whether the on/off bit is set in the chip. -/
def isOn (w : Plant) : Bool :=
  w.registers Register.operationMode &&& Register.onOff != 0

/-- The VCOM value that the chip holds. -/
def vcom (w : Plant) : UInt16 :=
  Vcom.join (w.registers Register.vcomLow) (w.registers Register.vcomHigh)

end Plant

/-- A transfer as the controller sees it. -/
def ofBus (x : Exchange Bus.device) : Exchange interface :=
  ⟨.transfer x.request, x.reply⟩

/-- A register program meets the chip of the plant and nothing else. -/
theorem play_onBus {α : Type} (action : Bus.Action α) (w : Plant) :
    (onBus action).play Plant.answer w =
      ⟨(action.run.play RegisterChip.answer w.chip).result,
        { w with chip := (action.run.play RegisterChip.answer w.chip).state },
        (action.run.play RegisterChip.answer w.chip).history.map ofBus⟩ := by
  unfold onBus
  generalize action.run = p
  induction p generalizing w with
  | done a => rfl
  | ask q next ih =>
    rw [Program.under_ask, Program.play_bind, ih]
    rfl

@[simp] theorem play_say (level : Log.Level) (text : String) (w : Plant) :
    (say level text).play Plant.answer w = ⟨(), w, [⟨.log ⟨level, text⟩, ()⟩]⟩ := rfl

@[simp] theorem play_delay (nanoseconds : Nat) (w : Plant) :
    (delay nanoseconds).play Plant.answer w = ⟨(), w, [⟨.delay nanoseconds, ()⟩]⟩ := rfl

@[simp] theorem play_enter (c : Controller) (next : Phase) (w : Plant) :
    (c.enter next).play Plant.answer w = ⟨c.moveTo next, w, c.moves next⟩ := by
  unfold Controller.enter Controller.moves
  by_cases h : c.phase = next
  · simp [h]
  · simp only [ne_eq, h, not_false_eq_true, if_true, if_false]
    rfl

/-- A register outside the footprint keeps its content. -/
theorem registers_of_spares {α : Type} {registers : List UInt8} {p : Program interface α}
    (hp : p.Only (Request.Spares registers)) {r : UInt8} (hr : r ∉ registers) (w : Plant) :
    (p.play Plant.answer w).state.registers r = w.registers r := by
  induction p generalizing w with
  | done a => rfl
  | ask q next ih =>
    refine (ih _ (hp.2 _) _).trans ?_
    cases q with
    | powerGood | delay | log => rfl
    | transfer t =>
      cases t with
      | read | exchange => exact congrFun (RegisterChip.answerRead_registers _ _ w.chip) r
      | write bytes =>
        obtain ⟨register, hin, value, rfl⟩ := hp.1 bytes rfl
        exact RegisterChip.answerWrite_other w.chip value fun h => hr (h ▸ hin)

/-- The mode byte with the on/off bit set or cleared. -/
def modeByte (on : Bool) (mode : UInt8) : UInt8 :=
  if on then mode ||| Register.onOff else mode &&& ~~~Register.onOff

/-- What was set or cleared before does not matter. -/
theorem modeByte_modeByte (on next : Bool) (mode : UInt8) : modeByte next (modeByte on mode) = modeByte next mode := by
  apply UInt8.toBitVec_inj.1
  cases on <;> cases next <;>
    simp only [modeByte, if_true, Bool.false_eq_true, if_false, UInt8.toBitVec_and, UInt8.toBitVec_or, UInt8.toBitVec_not]
  all_goals
    ext i hi
    simp only [BitVec.getElem_or, BitVec.getElem_and, BitVec.getElem_not]
    grind

theorem blend_onOff (on : Bool) (mode : UInt8) :
    Bus.blend mode Register.onOff (if on then Register.onOff else 0) = modeByte on mode := by
  apply UInt8.toBitVec_inj.1
  cases on
  · simp [Bus.blend, modeByte]
  · simp only [Bus.blend, modeByte, if_true, UInt8.toBitVec_and, UInt8.toBitVec_or, UInt8.toBitVec_not]
    ext i hi
    simp only [BitVec.getElem_or, BitVec.getElem_and, BitVec.getElem_not]
    grind

/-- The registers with the on/off bit set or cleared, and nothing else changed. -/
def Plant.withOnOff (w : Plant) (on : Bool) : UInt8 → UInt8 :=
  store w.registers Register.operationMode (modeByte on (w.registers Register.operationMode))

/-- Setting or clearing the on/off bit is all or nothing, and touches no other bit. -/
theorem registers_setOnOff (on : Bool) (w : Plant) :
    let r := (setOnOff on).play Plant.answer w
    r.state.levels = w.levels ∧
      ((r.result = .ok () ∧ r.state.registers = w.withOnOff on) ∨
        ∃ failure, r.result = .error failure ∧ r.state.registers = w.registers) := by
  have h := RegisterChip.registers_updateRegister w.chip Register.operationMode Register.onOff
    (if on then Register.onOff else 0)
  rw [blend_onOff] at h
  simp only [setOnOff, play_onBus]
  exact ⟨trivial, h⟩

/-- On a bus that works, the bit can be set and cleared. -/
theorem setOnOff_of_works {w : Plant} (h : ∀ i, w.chip.fates i = .carriedOut) (on : Bool) :
    ((setOnOff on).play Plant.answer w).result = .ok () := by
  simp only [setOnOff, play_onBus]
  exact RegisterChip.updateRegister_of_works h _ _ _

theorem registers_of_setOnOff_ok {on : Bool} {w : Plant} (h : ((setOnOff on).play Plant.answer w).result = .ok ()) :
    ((setOnOff on).play Plant.answer w).state.registers = w.withOnOff on := by
  rcases (registers_setOnOff on w).2 with ⟨-, hset⟩ | ⟨failure, herror, -⟩
  · exact hset
  · cases h.symm.trans herror

theorem registers_of_setOnOff_error {on : Bool} {w : Plant} {failure : Bus.Failure}
    (h : ((setOnOff on).play Plant.answer w).result = .error failure) :
    ((setOnOff on).play Plant.answer w).state.registers = w.registers := by
  rcases (registers_setOnOff on w).2 with ⟨hok, -⟩ | ⟨_, -, hsame⟩
  · cases h.symm.trans hok
  · exact hsame

theorem modeByte_and_onOff (on : Bool) (mode : UInt8) :
    modeByte on mode &&& Register.onOff = if on then Register.onOff else 0 := by
  cases on
  · simp [modeByte, UInt8.and_assoc]
  · apply UInt8.toBitVec_inj.1
    simp only [modeByte, if_true, UInt8.toBitVec_and, UInt8.toBitVec_or]
    ext i hi
    simp only [BitVec.getElem_or, BitVec.getElem_and]
    grind

/-- The other bits are what they were. -/
theorem modeByte_and_not_onOff (on : Bool) (mode : UInt8) :
    modeByte on mode &&& ~~~Register.onOff = mode &&& ~~~Register.onOff := by
  apply UInt8.toBitVec_inj.1
  cases on <;>
    simp only [modeByte, if_true, Bool.false_eq_true, if_false, UInt8.toBitVec_and, UInt8.toBitVec_or, UInt8.toBitVec_not]
  all_goals
    ext i hi
    simp only [BitVec.getElem_or, BitVec.getElem_and, BitVec.getElem_not]
    grind

theorem isOn_of_registers {w w' : Plant} {on : Bool} (h : w'.registers = w.withOnOff on) : w'.isOn = on := by
  rw [Plant.isOn, h, Plant.withOnOff, RegisterChip.store_same, modeByte_and_onOff]
  cases on <;> rfl

/-- What the bit was set to before does not matter. -/
theorem Plant.withOnOff_of_registers {w w' : Plant} {on : Bool} (next : Bool) (h : w'.registers = w.withOnOff on) :
    w'.withOnOff next = w.withOnOff next := by
  unfold Plant.withOnOff at h ⊢
  rw [h, RegisterChip.store_same, modeByte_modeByte]
  funext r
  by_cases hr : r = Register.operationMode
  · rw [hr, RegisterChip.store_same, RegisterChip.store_same]
  · rw [RegisterChip.store_of_ne _ _ hr, RegisterChip.store_of_ne _ _ hr, RegisterChip.store_of_ne _ _ hr]

end PenRail.Rail
