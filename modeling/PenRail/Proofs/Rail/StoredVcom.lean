import PenRail.Proofs.Rail.Plant
import PenRail.Proofs.Rail.Session
import PenRail.Proofs.Rail.VcomCode

/-!
# What VCOM the chip holds

A request for VCOM writes two bytes, each in a transfer of its own, and the second can fail after the first went through.
Then the low byte is the one of the request and the high byte is not. The main result follows the two registers through a
session: the low byte is that of the last request that began, the high byte that of the last one that was accepted.
-/

namespace PenRail.Rail

open Bench.Chip (store)
open Bus (RegisterChip)
open Program (ends_bind ends_done ends_request)

/-! ## One request -/

theorem ends_onWrite {register value : UInt8} {h : History interface} {r : Except Bus.Failure Unit} :
    (onBus (Bus.writeRegister register value)).Ends h r ↔ h = [⟨.transfer (.write [register, value]), r⟩] := by
  unfold onBus
  rw [RegisterChip.writeRegister_run, Program.under_request]
  exact ends_request

/-- How the writing of a register value goes: the low byte fails, or the high byte is tried as well and decides. -/
inductive CodeWritten (code : UInt16) : History interface → Result Unit → Prop
  | low (failure : Bus.Failure) :
      CodeWritten code [⟨.transfer (.write [Register.vcomLow, Vcom.lowByte code]), .error failure⟩] (.error (.bus failure))
  | both (reply : Except Bus.Failure Unit) :
      CodeWritten code
        [⟨.transfer (.write [Register.vcomLow, Vcom.lowByte code]), .ok ()⟩,
          ⟨.transfer (.write [Register.vcomHigh, Vcom.highByte code]), reply⟩]
        (reply.mapError .bus)

theorem ends_writeCode {code : UInt16} {h : History interface} {r : Result Unit} (he : (Vcom.writeCode code).Ends h r) :
    CodeWritten code h r := by
  obtain ⟨_, first, _, rfl, hlow, hrest⟩ := ends_bind.1 he
  obtain rfl := ends_onWrite.1 hlow
  cases first with
  | error failure =>
    obtain ⟨rfl, rfl⟩ := ends_done.1 hrest
    exact .low failure
  | ok =>
    obtain ⟨_, second, _, rfl, hhigh, hdone⟩ := ends_bind.1 hrest
    obtain rfl := ends_onWrite.1 hhigh
    obtain ⟨rfl, rfl⟩ := ends_done.1 hdone
    exact .both second

/-- A write to the register that was carried out. -/
def isStore (register : UInt8) (x : Exchange interface) : Bool :=
  match x with
  | ⟨.transfer (.write [r, _]), .ok _⟩ => r == register
  | _ => false

/-- The register value that an operation asks for, if it asks for one that is in range. -/
def Method.vcomCode? : Method → Option UInt16
  | .setVoltage millivolts => if 0 ≤ millivolts ∧ millivolts ≤ Vcom.limit then some (Vcom.code millivolts) else none
  | .setVcom millivolts => if -Vcom.limit ≤ millivolts ∧ millivolts ≤ 0 then some (Vcom.code (-millivolts)) else none
  | _ => none

/-- The millivolts that an operation asks for, as they are given. -/
def Method.millivolts? : Method → Option Int32
  | .setVoltage millivolts | .setVcom millivolts => some millivolts
  | _ => none

theorem join_bytes_of_vcomCode {m : Method} {code : UInt16} (h : m.vcomCode? = some code) :
    Vcom.join (Vcom.lowByte code) (Vcom.highByte code) = code := by
  cases m with
  | setVoltage millivolts | setVcom millivolts =>
    obtain ⟨-, hcode⟩ := Option.ite_none_right_eq_some.1 h
    obtain rfl := Option.some.inj hcode
    exact Vcom.join_bytes_code _
  | _ => cases h

/-- An operation that asks for a value in range writes that value. -/
theorem call_of_vcomCode (c : Controller) {m : Method} {code : UInt16} (h : m.vcomCode? = some code) :
    c.call m = c.keep (fun _ => .unit) (Vcom.writeCode code) := by
  cases m with
  | setVoltage millivolts =>
    obtain ⟨hrange, hcode⟩ := Option.ite_none_right_eq_some.1 h
    rw [Controller.call, Vcom.write, if_pos hrange, Option.some.inj hcode]
  | setVcom millivolts =>
    obtain ⟨hrange, hcode⟩ := Option.ite_none_right_eq_some.1 h
    rw [Controller.call, Vcom.writeSigned, if_pos hrange, Vcom.write, if_pos (Vcom.neg_in_range hrange),
      Option.some.inj hcode]
  | _ => cases h

/-- An operation that asks for a value out of range is refused, and asks nobody. -/
theorem call_of_refused (c : Controller) {m : Method} {millivolts : Int32} (hm : m.millivolts? = some millivolts)
    (h : m.vcomCode? = none) : c.call m = .done (.error (.outOfRange millivolts), c) := by
  cases m with
  | setVoltage asked =>
    obtain rfl := Option.some.inj hm
    have hrange : ¬(0 ≤ asked ∧ asked ≤ Vcom.limit) := by simpa [Method.vcomCode?] using h
    rw [Controller.call, Vcom.write, if_neg hrange]
    rfl
  | setVcom asked =>
    obtain rfl := Option.some.inj hm
    have hrange : ¬(-Vcom.limit ≤ asked ∧ asked ≤ 0) := by simpa [Method.vcomCode?] using h
    rw [Controller.call, Vcom.writeSigned, if_neg hrange]
    rfl
  | _ => cases hm

/-- Any other operation leaves both registers alone. -/
theorem registers_of_no_code (c : Controller) {m : Method} (h : m.vcomCode? = none) {r : UInt8}
    (hr : r = Register.vcomLow ∨ r = Register.vcomHigh) (w : Plant) :
    ((c.call m).play Plant.answer w).state.registers r = w.registers r := by
  have hspared (hlow : Register.vcomLow ∉ m.footprint) (hhigh : Register.vcomHigh ∉ m.footprint) :
      ((c.call m).play Plant.answer w).state.registers r = w.registers r := by
    rcases hr with rfl | rfl
    · exact registers_of_spares (only_call_footprint c m) hlow w
    · exact registers_of_spares (only_call_footprint c m) hhigh w
  cases m with
  | setVoltage millivolts | setVcom millivolts =>
    rw [call_of_refused c rfl h]
    rfl
  | _ => exact hspared (by decide) (by decide)

/-- Writing one register: the value is stored, or the chip refused and nothing has changed. -/
theorem play_onWrite (register value : UInt8) (w : Plant) :
    let r := (onBus (Bus.writeRegister register value)).play Plant.answer w
    r.history = [⟨.transfer (.write [register, value]), r.result⟩] ∧
      ((r.result = .ok () ∧ r.state.registers = store w.registers register value) ∨
        ∃ failure, r.result = .error failure ∧ r.state.registers = w.registers) := by
  simp only [play_onBus, RegisterChip.play_writeRegister]
  refine ⟨rfl, ?_⟩
  cases hfate : w.chip.fates 0 with
  | fails failure =>
    exact .inr ⟨failure, by simp [RegisterChip.writeOutcome, RegisterChip.answerWrite, Plant.registers, hfate]⟩
  | carriedOut | empty =>
    exact .inl (by simp [RegisterChip.writeOutcome, RegisterChip.answerWrite, RegisterChip.written, Plant.registers, hfate])

/-- The chip refused the low byte, and that was all. -/
theorem play_writeCode_refused {code : UInt16} {w : Plant} {failure : Bus.Failure}
    (h : ((onBus (Bus.writeRegister Register.vcomLow (Vcom.lowByte code))).play Plant.answer w).result = .error failure) :
    let first := (onBus (Bus.writeRegister Register.vcomLow (Vcom.lowByte code))).play Plant.answer w
    (Vcom.writeCode code).play Plant.answer w = ⟨.error (.bus failure), first.state, first.history⟩ := by
  unfold Vcom.lowByte at h ⊢
  simp only [Vcom.writeCode, Program.play_bind, h]
  simp only [Program.pure_eq, Program.play_done, Played.behind, List.append_nil]

/-- The low byte was stored, and the high byte decides how the request ends. -/
theorem play_writeCode_begun {code : UInt16} {w : Plant}
    (h : ((onBus (Bus.writeRegister Register.vcomLow (Vcom.lowByte code))).play Plant.answer w).result = .ok ()) :
    let first := (onBus (Bus.writeRegister Register.vcomLow (Vcom.lowByte code))).play Plant.answer w
    let second := (onBus (Bus.writeRegister Register.vcomHigh (Vcom.highByte code))).play Plant.answer first.state
    (Vcom.writeCode code).play Plant.answer w =
      ⟨second.result.mapError .bus, second.state, first.history ++ second.history⟩ := by
  unfold Vcom.lowByte at h ⊢
  unfold Vcom.highByte
  simp only [Vcom.writeCode, Program.play_bind, h]
  simp only [Program.pure_eq, Program.play_done, Played.behind, List.append_nil]

/-- How far a request gets: no byte is stored, or the low byte only, or both. -/
theorem play_writeCode (code : UInt16) (w : Plant) :
    let r := (Vcom.writeCode code).play Plant.answer w
    let low := store w.registers Register.vcomLow (Vcom.lowByte code)
    let began := r.history.any (isStore Register.vcomLow)
    ((∃ e, r.result = .error e) ∧ began = false ∧ r.state.registers = w.registers) ∨
      ((∃ e, r.result = .error e) ∧ began = true ∧ r.state.registers = low) ∨
      (r.result = .ok () ∧ began = true ∧ r.state.registers = store low Register.vcomHigh (Vcom.highByte code)) := by
  intro r low began
  obtain ⟨hlow, hfirst⟩ := play_onWrite Register.vcomLow (Vcom.lowByte code) w
  rcases hfirst with ⟨hok, hset⟩ | ⟨failure, herror, hsame⟩
  · have hr : r = _ := play_writeCode_begun hok
    rw [hok] at hlow
    have hbegan : began = true := by
      simp only [began, hr, hlow]
      rfl
    obtain ⟨-, hsecond⟩ := play_onWrite Register.vcomHigh (Vcom.highByte code)
      ((onBus (Bus.writeRegister Register.vcomLow (Vcom.lowByte code))).play Plant.answer w).state
    rw [hset] at hsecond
    rcases hsecond with ⟨hdone, hboth⟩ | ⟨failure, herror, hkept⟩
    · refine .inr (.inr ⟨?_, hbegan, ?_⟩)
      · rw [hr, hdone]
        rfl
      · rw [hr]
        exact hboth
    · refine .inr (.inl ⟨⟨.bus failure, ?_⟩, hbegan, ?_⟩)
      · rw [hr, herror]
        rfl
      · rw [hr]
        exact hkept
  · have hr : r = _ := play_writeCode_refused herror
    rw [herror] at hlow
    refine .inl ⟨⟨.bus failure, by rw [hr]⟩, ?_, by rw [hr]; exact hsame⟩
    simp only [began, hr, hlow]
    rfl

/-! ## One call -/

/-- The value whose low byte a call stored. -/
def Call.begun? (k : Call) : Option UInt16 :=
  if k.history.any (isStore Register.vcomLow) then k.operation.vcomCode? else none

/-- The value that a call stored and answered for. -/
def Call.stored? (k : Call) : Option UInt16 :=
  if k.result.isOk then k.operation.vcomCode? else none

/-- The call stored the low byte of its value and not the high byte. -/
def Call.Torn (k : Call) : Prop :=
  k.begun?.isSome ∧ k.stored? = none

/-- The call stored its value. -/
def Call.Stores (k : Call) : Prop :=
  k.stored?.isSome

/-- What a call does to the two registers: it stores the low byte of the value it begins and the high byte of the value it
stores, which is the same. -/
theorem Session.registers_next (s : Session Plant) (m : Method) :
    let k : Call := s.made Controller.call Plant.answer m
    let later := (s.next Controller.call Plant.answer m).state
    later.registers Register.vcomLow = (k.begun?.map Vcom.lowByte).getD (s.state.registers Register.vcomLow) ∧
      later.registers Register.vcomHigh = (k.stored?.map Vcom.highByte).getD (s.state.registers Register.vcomHigh) ∧
      ∀ code, k.stored? = some code → k.begun? = some code := by
  intro k later
  cases hm : m.vcomCode? with
  | none =>
    have hbegun : k.begun? = none := by
      unfold Call.begun?
      exact ite_eq_right_iff.2 fun _ => hm
    have hstored : k.stored? = none := by
      unfold Call.stored?
      exact ite_eq_right_iff.2 fun _ => hm
    rw [hbegun, hstored]
    refine ⟨?_, ?_, fun _ h => h⟩
    · exact registers_of_no_code s.view hm (.inl rfl) s.state
    · exact registers_of_no_code s.view hm (.inr rfl) s.state
  | some code =>
    obtain ⟨hresult, hhistory, hstate⟩ := Session.made_keep Plant.answer s (call_of_vcomCode s.view hm)
    change k.result = _ at hresult
    change k.history = _ at hhistory
    change later = _ at hstate
    have hmethod : k.operation.vcomCode? = some code := hm
    have hother : Register.vcomLow ≠ Register.vcomHigh := by decide
    rw [Call.begun?, Call.stored?, hmethod, hresult, hhistory, hstate]
    rcases play_writeCode code s.state with ⟨⟨e, he⟩, hbegan, hset⟩ | ⟨⟨e, he⟩, hbegan, hset⟩ | ⟨hok, hbegan, hset⟩
    · rw [he, hbegan, hset]
      exact ⟨rfl, rfl, by simp [Except.map, Except.isOk, Except.toBool]⟩
    · rw [he, hbegan, hset]
      refine ⟨RegisterChip.store_same _ _ _, RegisterChip.store_of_ne _ _ hother.symm, ?_⟩
      simp [Except.map, Except.isOk, Except.toBool]
    · rw [hok, hbegan, hset, RegisterChip.store_of_ne _ _ hother, RegisterChip.store_same, RegisterChip.store_same]
      exact ⟨rfl, rfl, fun _ h => h⟩

/-! ## A session -/

/-- The last value of its kind in the calls so far. -/
def lastValue (value? : Call → Option UInt16) (calls : List Call) : Option UInt16 :=
  (calls.filterMap value?).getLast?

theorem lastValue_append (value? : Call → Option UInt16) (calls : List Call) (k : Call) :
    lastValue value? (calls ++ [k]) = (value? k).or (lastValue value? calls) := by
  unfold lastValue
  cases hk : value? k <;> simp [List.filterMap_append, hk]

theorem join_bytes_of_stored {calls : List Call} {code : UInt16} (h : lastValue Call.stored? calls = some code) :
    Vcom.join (Vcom.lowByte code) (Vcom.highByte code) = code := by
  obtain ⟨k, -, hk⟩ := List.mem_filterMap.1 (List.mem_of_getLast? h)
  unfold Call.stored? at hk
  split at hk
  · exact join_bytes_of_vcomCode hk
  · cases hk

/-- What a session keeps: the low byte is that of the last value begun, the high byte that of the last one stored, and
these are the same value unless a torn one stands. -/
structure HoldsVcom (w : Plant) (s : Session Plant) : Prop where
  low : s.state.registers Register.vcomLow =
    ((lastValue Call.begun? s.calls).map Vcom.lowByte).getD (w.registers Register.vcomLow)
  high : s.state.registers Register.vcomHigh =
    ((lastValue Call.stored? s.calls).map Vcom.highByte).getD (w.registers Register.vcomHigh)
  whole : ¬Stands Call.Torn Call.Stores s.calls → lastValue Call.begun? s.calls = lastValue Call.stored? s.calls

/-- A later value of a register goes before an earlier one. -/
theorem getD_map_or {α β : Type} (f : α → β) (o p : Option α) (d : β) :
    ((o.or p).map f).getD d = (o.map f).getD ((p.map f).getD d) := by
  cases o <;> rfl

theorem HoldsVcom.next {w : Plant} {s : Session Plant} (hs : HoldsVcom w s) (m : Method) :
    HoldsVcom w (s.next Controller.call Plant.answer m) := by
  let k : Call := s.made Controller.call Plant.answer m
  obtain ⟨hlow, hhigh, hsame⟩ := s.registers_next m
  have hcalls : (s.next Controller.call Plant.answer m).calls = s.calls ++ [k] := rfl
  refine ⟨?_, ?_, ?_⟩
  · rw [hlow, hs.low, hcalls, lastValue_append, getD_map_or]
  · rw [hhigh, hs.high, hcalls, lastValue_append, getD_map_or]
  · intro hstanding
    rw [hcalls, stands_append, not_or, not_and, Classical.not_not] at hstanding
    obtain ⟨hwhole, hsettled⟩ := hstanding
    rw [hcalls, lastValue_append, lastValue_append]
    cases hstored : k.stored? with
    | some code => rw [hsame code hstored, Option.some_or, Option.some_or]
    | none =>
      have hbegun : k.begun? = none := by
        cases hb : k.begun? with
        | none => rfl
        | some code => exact absurd ⟨by rw [hb]; rfl, hstored⟩ hwhole
      have hbefore : ¬Stands Call.Torn Call.Stores s.calls := by
        intro h
        have hk := hsettled h
        rw [Call.Stores, hstored] at hk
        cases hk
      rw [hbegun, Option.none_or, Option.none_or, hs.whole hbefore]

theorem HoldsVcom.run (methods : List Method) (w : Plant) :
    HoldsVcom w (Course.run Controller.call Plant.answer methods {} w) :=
  Course.always Controller.call Plant.answer (HoldsVcom w) ⟨rfl, rfl, fun _ => rfl⟩ fun _ m _ hs => hs.next m

/-- VCOM in the chip after any operations on a fresh controller, over any chip with any failures. Unless a torn request
stands, it is the value of the last request that was accepted, or what it was at first. In any case its low byte is that
of the last request that began, and its high byte that of the last one that was accepted. And an operation that fails
leaves it as it is exactly if it stored no low byte, or the one that was there. -/
theorem stored_vcom (methods : List Method) (w : Plant) :
    let s : Session Plant := Course.run Controller.call Plant.answer methods {} w
    (¬Stands Call.Torn Call.Stores s.calls → s.state.vcom = (lastValue Call.stored? s.calls).getD w.vcom) ∧
      s.state.vcom = Vcom.join (((lastValue Call.begun? s.calls).map Vcom.lowByte).getD (w.registers Register.vcomLow))
        (((lastValue Call.stored? s.calls).map Vcom.highByte).getD (w.registers Register.vcomHigh)) ∧
      ∀ m e, (s.made Controller.call Plant.answer m).result = .error e →
        ((s.next Controller.call Plant.answer m).state.vcom = s.state.vcom ↔
          ∀ code, Call.begun? (s.made Controller.call Plant.answer m) = some code →
            Vcom.lowByte code = s.state.registers Register.vcomLow) := by
  intro s
  have hs : HoldsVcom w s := .run methods w
  refine ⟨fun hstanding => ?_, ?_, fun m e he => ?_⟩
  · rw [Plant.vcom, hs.low, hs.high, hs.whole hstanding]
    cases hlast : lastValue Call.stored? s.calls with
    | none => rfl
    | some code => exact join_bytes_of_stored hlast
  · rw [Plant.vcom, hs.low, hs.high]
  · obtain ⟨hlow, hhigh, -⟩ := s.registers_next m
    have hstored : Call.stored? (s.made Controller.call Plant.answer m) = none := by
      rw [Call.stored?, he]
      rfl
    rw [Plant.vcom, Plant.vcom, hlow, hhigh, hstored, Option.map_none, Option.getD_none, Vcom.join_low_inj]
    cases hbegun : Call.begun? (s.made Controller.call Plant.answer m) with
    | none => simp
    | some code =>
      rw [Option.map_some, Option.getD_some]
      constructor
      · rintro hbyte _ ⟨⟩
        exact hbyte
      · intro h
        exact h code rfl

/-- A plant whose chip does not acknowledge its fourth transfer. -/
def Plant.halting : Plant :=
  ⟨⟨fun _ => 0x00, fun i => if i = 3 then .fails (.adapter (.noAcknowledge .data)) else .carriedOut⟩, fun _ => .ok false⟩

/-- There 2560 mV are stored, and a request for 2550 mV that fails leaves 5110 mV, which nobody may ask for. -/
theorem stored_vcom_halting :
    let s : Session Plant := Course.run Controller.call Plant.answer [.setVoltage 2560] {} Plant.halting
    let torn := s.next Controller.call Plant.answer (.setVoltage 2550)
    ¬Stands Call.Torn Call.Stores s.calls ∧ s.state.vcom = 256 ∧
      (s.made Controller.call Plant.answer (.setVoltage 2550)).result = .error (.bus (.adapter (.noAcknowledge .data))) ∧
      torn.state.vcom ≠ s.state.vcom ∧ torn.state.vcom = 511 ∧ Vcom.code Vcom.limit = 500 := by
  intro s torn
  obtain ⟨hwhole, -, hfails⟩ := stored_vcom [.setVoltage 2560] Plant.halting
  have hstanding : ¬Stands Call.Torn Call.Stores s.calls := by
    rintro h
    rcases stands_append.1 (h : Stands _ _ ([] ++ [_])) with hk | ⟨hk, -⟩
    · cases hk.2
    · exact not_stands_nil hk
  have herror : (s.made Controller.call Plant.answer (.setVoltage 2550)).result =
      .error (.bus (.adapter (.noAcknowledge .data))) := by
    rfl
  refine ⟨hstanding, (hwhole hstanding).trans rfl, herror, fun hkept => ?_, by decide, by decide⟩
  exact absurd ((hfails _ _ herror).1 hkept 255 rfl) (by decide)

/-- So a request for a VCOM that fails does not always leave the stored one as it was. -/
theorem not_always_vcom_kept :
    ¬∀ (methods : List Method) (w : Plant) (millivolts : Int32) (m : Method) (e : Error),
      m = .setVoltage millivolts ∨ m = .setVcom millivolts →
        let s : Session Plant := Course.run Controller.call Plant.answer methods {} w
        (s.made Controller.call Plant.answer m).result = .error e →
          (s.next Controller.call Plant.answer m).state.vcom = s.state.vcom := by
  intro h
  have hkept := h [.setVoltage 2560] Plant.halting 2550 (.setVoltage 2550) (.bus (.adapter (.noAcknowledge .data))) (.inl rfl)
    (by rfl)
  exact absurd hkept (by decide)

end PenRail.Rail
