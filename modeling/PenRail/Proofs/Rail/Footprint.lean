import PenRail.Proofs.Bus.RegisterChip
import PenRail.Rail.Method

/-!
# The registers an operation can write

`StoresIn registers` are the requests that use the bus and write none but these registers. Each part of the controller
that only uses the bus is given its footprint here, whatever the chip answers; `Method.footprint` is the list of them, and
`only_call_footprint` says that an operation as a whole writes nothing else.
-/

namespace PenRail.Rail

open Program (Only)

/-- A transfer that writes none but these registers. -/
def Request.StoresIn (registers : List UInt8) : Request → Prop
  | .transfer (.write bytes) => ∃ register ∈ registers, ∃ value, bytes = [register, value]
  | .transfer _ => True
  | _ => False

/-- Anything but a write, or a write to one of these registers. -/
def Request.Spares (registers : List UInt8) (q : Request) : Prop :=
  ∀ bytes, q = .transfer (.write bytes) → q.StoresIn registers

theorem Request.StoresIn.spares {registers : List UInt8} {q : Request} (h : q.StoresIn registers) : q.Spares registers :=
  fun _ _ => h

theorem only_onBus {α : Type} {P : Request → Prop} {action : Bus.Action α} (h : action.run.Only fun t => P (.transfer t)) :
    (onBus action).Only P := by
  unfold onBus
  generalize action.run = p at h
  induction p with
  | done a => trivial
  | ask t next ih => exact .bind ⟨h.1, fun _ => trivial⟩ fun r => ih r (h.2 r)

variable {registers : List UInt8}

/-- Reading a register is an exchange of one byte for one. -/
theorem only_exchange {P : Bus.Transfer → Prop} {register : UInt8} (h : P (.exchange [register] 1)) :
    (Bus.readRegister register).run.Only P := by
  rw [Bus.RegisterChip.readRegister_run]
  refine ⟨h, fun r => ?_⟩
  rcases r with failure | (_ | ⟨value, rest⟩) <;> trivial

theorem only_readRegister (register : UInt8) : (onBus (Bus.readRegister register)).Only (Request.StoresIn registers) :=
  only_onBus (only_exchange trivial)

theorem only_writeRegister {register : UInt8} (value : UInt8) (h : register ∈ registers) :
    (onBus (Bus.writeRegister register value)).Only (Request.StoresIn registers) := by
  apply only_onBus
  rw [Bus.RegisterChip.writeRegister_run]
  exact ⟨⟨register, h, value, rfl⟩, fun _ => trivial⟩

theorem only_updateRegister {register : UInt8} (mask value : UInt8) (h : register ∈ registers) :
    (onBus (Bus.updateRegister register mask value)).Only (Request.StoresIn registers) := by
  apply only_onBus
  rw [Bus.RegisterChip.updateRegister_run]
  refine (only_exchange trivial).bind fun r => ?_
  rcases r with failure | current
  · trivial
  · dsimp only
    split
    · trivial
    · exact ⟨⟨register, h, _, rfl⟩, fun _ => trivial⟩

theorem only_setOnOff (on : Bool) : (setOnOff on).Only (Request.StoresIn [Register.operationMode]) :=
  only_updateRegister _ _ (by simp)

theorem only_readByte (register : UInt8) : (readByte register).Only (Request.StoresIn registers) :=
  (only_readRegister register).bind fun _ => trivial

theorem only_readOnOff : readOnOff.Only (Request.StoresIn registers) :=
  (only_readByte _).bind fun _ => trivial

theorem only_readPowerGood : readPowerGood.Only (Request.StoresIn registers) :=
  (only_readByte _).bind fun _ => trivial

theorem only_readTemperature : readTemperature.Only (Request.StoresIn registers) :=
  (only_readByte _).bind fun _ => trivial

theorem only_clearPowerOnDelay : clearPowerOnDelay.Only (Request.StoresIn [Register.powerOnDelay]) :=
  (only_writeRegister 0 (by simp)).bind fun _ => trivial

theorem only_readStatus (c : Controller) : c.readStatus.Only (Request.StoresIn registers) := by
  refine (only_readByte _).bind fun r => ?_
  rcases r with e | flags
  · trivial
  · dsimp only
    split <;> trivial

theorem only_describeFault (c : Controller) : c.describeFault.Only (Request.StoresIn registers) :=
  (only_readStatus c).bind fun _ => trivial

namespace Vcom

theorem only_readCode : readCode.Only (Request.StoresIn registers) := by
  refine (only_readByte _).bind fun r => ?_
  rcases r with e | low
  · trivial
  · exact (only_readByte _).bind fun _ => trivial

theorem only_read : read.Only (Request.StoresIn registers) :=
  only_readCode.bind fun _ => trivial

theorem only_readMicrovolts : readMicrovolts.Only (Request.StoresIn registers) :=
  only_readCode.bind fun _ => trivial

theorem only_readSigned : readSigned.Only (Request.StoresIn registers) :=
  only_read.bind fun _ => trivial

theorem only_writeCode (code : UInt16) : (writeCode code).Only (Request.StoresIn [Register.vcomLow, Register.vcomHigh]) := by
  refine (only_writeRegister _ (by simp)).bind fun r => ?_
  rcases r with failure | _
  · trivial
  · exact (only_writeRegister _ (by simp)).bind fun _ => trivial

theorem only_write (millivolts : Int32) :
    (write millivolts).Only (Request.StoresIn [Register.vcomLow, Register.vcomHigh]) := by
  unfold write
  split
  · exact only_writeCode _
  · trivial

theorem only_writeSigned (millivolts : Int32) :
    (writeSigned millivolts).Only (Request.StoresIn [Register.vcomLow, Register.vcomHigh]) := by
  unfold writeSigned
  split
  · exact only_write _
  · trivial

end Vcom

/-! ## Operations -/

/-- What is not a write spares every register. -/
theorem spares_of_ne_write {q : Request} (h : ∀ bytes, q ≠ .transfer (.write bytes)) : q.Spares registers :=
  fun bytes hq => absurd hq (h bytes)

theorem only_say (level : Log.Level) (text : String) : (say level text).Only (Request.Spares registers) :=
  ⟨spares_of_ne_write (by simp), fun _ => trivial⟩

theorem only_delay (nanoseconds : Nat) : (delay nanoseconds).Only (Request.Spares registers) :=
  ⟨spares_of_ne_write (by simp), fun _ => trivial⟩

/-- Anything but a transfer. -/
def Request.OffBus : Request → Prop
  | .transfer _ => False
  | _ => True

theorem Request.OffBus.spares {q : Request} (h : q.OffBus) : q.Spares registers := by
  rintro bytes rfl
  exact h.elim

/-- Polling does without the bus. -/
theorem offBus_pollFrom (waits budget : Nat) : (pollFrom waits budget).Only Request.OffBus := by
  induction budget generalizing waits with
  | zero => trivial
  | succ budget ih =>
    refine ⟨trivial, fun level => ?_⟩
    rcases level with reason | (_ | _)
    · exact ⟨trivial, fun _ => trivial⟩
    · exact ⟨trivial, fun _ => ih (waits + 1)⟩
    · trivial

theorem only_pollFrom (waits budget : Nat) : (pollFrom waits budget).Only (Request.Spares registers) :=
  (offBus_pollFrom waits budget).mono fun _ => Request.OffBus.spares

theorem only_waitPowerGood : waitPowerGood.Only (Request.Spares registers) := by
  refine (only_pollFrom _ _).bind fun polled => ?_
  rcases polled with reason | seen <;> trivial

theorem only_enter (c : Controller) (next : Phase) : (c.enter next).Only (Request.Spares registers) := by
  unfold Controller.enter
  split
  · exact (only_say _ _).bind fun _ => trivial
  · trivial

theorem only_switchOff : switchOff.Only (Request.Spares [Register.operationMode]) :=
  ((only_setOnOff false).mono fun _ => Request.StoresIn.spares).bind fun _ => (only_delay _).bind fun _ => trivial

theorem only_giveUp (c : Controller) : c.giveUp.Only (Request.Spares [Register.operationMode]) := by
  refine (only_say _ _).bind fun _ => (only_enter _ _).bind fun _ => only_switchOff.bind fun outcome => ?_
  rcases outcome with failure | _
  · exact (only_say _ _).bind fun _ => (only_enter _ _).bind fun _ => trivial
  · exact (only_enter _ _).bind fun _ => trivial

theorem only_awaitPower (c : Controller) : c.awaitPower.Only (Request.Spares [Register.operationMode]) := by
  refine (only_pollFrom _ _).bind fun polled => ?_
  rcases polled with reason | (_ | waits)
  · trivial
  · exact only_giveUp c
  · exact (only_say _ _).bind fun _ => (only_enter _ _).bind fun _ => trivial

theorem only_enable (c : Controller) : c.enable.Only (Request.Spares [Register.operationMode]) := by
  unfold Controller.enable
  split
  · trivial
  · refine (only_enter _ _).bind fun _ => ((only_setOnOff true).mono fun _ => Request.StoresIn.spares).bind fun outcome => ?_
    rcases outcome with failure | _
    · exact (only_enter _ _).bind fun _ => trivial
    · exact only_awaitPower _

theorem only_disable (c : Controller) : c.disable.Only (Request.Spares [Register.operationMode]) := by
  refine (only_enter _ _).bind fun _ => only_switchOff.bind fun outcome => ?_
  rcases outcome with failure | _ <;> exact (only_enter _ _).bind fun _ => trivial

/-- The registers that an operation may write. -/
def Method.footprint : Method → List UInt8
  | .init => [Register.powerOnDelay]
  | .enable | .disable => [Register.operationMode]
  | .setVoltage _ | .setVcom _ => [Register.vcomLow, Register.vcomHigh]
  | .isEnabled | .waitPowerGood | .readStatus | .faultState | .powerGood | .getVoltage | .getVcom | .getMicrovolts
  | .readTemperature => []

/-- The operations that may change the controller's phase. -/
def Method.switches : Method → Bool
  | .enable | .disable => true
  | _ => false

theorem Method.eq_of_switches {m : Method} (h : m.switches = true) : m = .enable ∨ m = .disable := by
  cases m <;> simp_all [Method.switches]

/-- The mode register is written by the switches alone. -/
theorem Method.operationMode_not_mem_footprint {m : Method} (h : m.switches = false) :
    Register.operationMode ∉ m.footprint := by
  cases m <;> simp_all [Method.switches, Method.footprint, Register.operationMode, Register.powerOnDelay, Register.vcomLow,
    Register.vcomHigh]

/-- An operation that leaves the phase alone only uses the bus, apart from waiting for power good. -/
theorem only_call_of_not_switches (c : Controller) {m : Method} (hm : m.switches = false) (hwait : m ≠ .waitPowerGood) :
    (c.call m).Only (Request.StoresIn m.footprint) := by
  cases m with
  | enable | disable => cases hm
  | waitPowerGood => exact absurd rfl hwait
  | init => exact only_clearPowerOnDelay.bind fun _ => trivial
  | isEnabled => exact only_readOnOff.bind fun _ => trivial
  | readStatus => exact (only_readStatus c).bind fun _ => trivial
  | faultState => exact (only_describeFault c).bind fun _ => trivial
  | powerGood => exact only_readPowerGood.bind fun _ => trivial
  | getVoltage => exact Vcom.only_read.bind fun _ => trivial
  | setVoltage millivolts => exact (Vcom.only_write millivolts).bind fun _ => trivial
  | getVcom => exact Vcom.only_readSigned.bind fun _ => trivial
  | setVcom millivolts => exact (Vcom.only_writeSigned millivolts).bind fun _ => trivial
  | getMicrovolts => exact Vcom.only_readMicrovolts.bind fun _ => trivial
  | readTemperature => exact only_readTemperature.bind fun _ => trivial

/-- Whatever it is answered, an operation writes only the registers of its footprint. -/
theorem only_call_footprint (c : Controller) (m : Method) : (c.call m).Only (Request.Spares m.footprint) := by
  by_cases hwait : m = .waitPowerGood
  · subst hwait
    exact only_waitPowerGood.bind fun _ => trivial
  · cases hm : m.switches with
    | false => exact (only_call_of_not_switches c hm hwait).mono fun _ => Request.StoresIn.spares
    | true =>
      rcases Method.eq_of_switches hm with rfl | rfl
      · exact (only_enable c).bind fun _ => trivial
      · exact (only_disable c).bind fun _ => trivial

end PenRail.Rail
