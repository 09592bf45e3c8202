import PenRail.Proofs.Rail.Recovery
import PenRail.Proofs.Rail.StoredVcom

/-!
# VCOM, written and read back

On the way in there are a range check, a division and two bytes, on the way out two reads and a multiplication. The register
value stands between them: an accepted request makes it count the tens of its magnitude (`Session.vcom_of_accepted`), nothing
but another request changes it (`Session.vcom_after`), and a reading answers it in units of its own
(`Session.reads_of_unit`). So a voltage that was accepted comes back rounded down to a step of ten.
-/

namespace PenRail.Rail

open Bus (RegisterChip)
open Program (ends_done)

/-! ## What is asked for -/

/-- The magnitude that an operation asks for, in millivolts. -/
def Method.magnitude? : Method → Option Int
  | .setVoltage millivolts => some millivolts.toInt
  | .setVcom millivolts => some (-millivolts.toInt)
  | _ => none

section
variable {m : Method} {v : Int}

/-- A magnitude up to five volts may be stored, and its register value counts the whole tens. -/
theorem Method.vcomCode_of_magnitude (hm : m.magnitude? = some v) (hv : 0 ≤ v ∧ v ≤ 5000) :
    ∃ code, m.vcomCode? = some code ∧ (code.toNat : Int) = v / 10 := by
  cases m with
  | setVoltage millivolts =>
    obtain rfl := Option.some.inj hm
    have hrange := Vcom.in_range_iff.2 hv
    exact ⟨_, if_pos hrange, Vcom.code_toNat hrange⟩
  | setVcom millivolts =>
    obtain rfl := Option.some.inj hm
    have hrange : -Vcom.limit ≤ millivolts ∧ millivolts ≤ 0 := Vcom.signed_in_range_iff.2 (by omega)
    refine ⟨_, if_pos hrange, ?_⟩
    rw [Vcom.code_toNat (Vcom.neg_in_range hrange), Vcom.toInt_neg (by omega)]
  | _ => cases hm

theorem Method.vcomCode_of_out_of_range (hm : m.magnitude? = some v) (hv : ¬(0 ≤ v ∧ v ≤ 5000)) : m.vcomCode? = none := by
  cases m with
  | setVoltage millivolts =>
    obtain rfl := Option.some.inj hm
    exact if_neg fun h => hv (Vcom.in_range_iff.1 h)
  | setVcom millivolts =>
    obtain rfl := Option.some.inj hm
    refine if_neg fun h => hv ?_
    have hrange := Vcom.signed_in_range_iff.1 h
    omega
  | _ => cases hm

theorem Method.vcomCode_of_no_magnitude (hm : m.magnitude? = none) : m.vcomCode? = none := by
  cases m with
  | setVoltage | setVcom => cases hm
  | _ => rfl

theorem Method.millivolts_of_magnitude (hm : m.magnitude? = some v) : ∃ millivolts, m.millivolts? = some millivolts := by
  cases m with
  | setVoltage millivolts | setVcom millivolts => exact ⟨millivolts, rfl⟩
  | _ => cases hm

/-- How a request can end, whatever the bus is like. -/
theorem ends_asked {c : Controller} {millivolts : Int32} (hasked : m.millivolts? = some millivolts)
    (hm : m.magnitude? = some v) {h : History interface} {o : Outcome Answer} (he : (c.call m).Ends h o) :
    ((∃ x, o.1 = .error (.outOfRange x)) ↔ ¬(0 ≤ v ∧ v ≤ 5000)) ∧
      (¬(0 ≤ v ∧ v ≤ 5000) → o = (.error (.outOfRange millivolts), c) ∧ h = []) := by
  by_cases hv : 0 ≤ v ∧ v ≤ 5000
  · obtain ⟨code, hcode, -⟩ := m.vcomCode_of_magnitude hm hv
    rw [call_of_vcomCode c hcode] at he
    obtain ⟨r, hr, rfl⟩ := ends_keep.1 he
    refine ⟨⟨?_, fun hout => absurd hv hout⟩, fun hout => absurd hv hout⟩
    rintro ⟨x, hx⟩
    cases ends_writeCode hr with
    | low failure => cases hx
    | both reply => cases reply <;> cases hx
  · rw [call_of_refused c hasked (m.vcomCode_of_out_of_range hm hv)] at he
    obtain ⟨rfl, rfl⟩ := ends_done.1 he
    exact ⟨⟨fun _ => hv, fun _ => ⟨millivolts, rfl⟩⟩, fun _ => ⟨rfl, rfl⟩⟩

end

/-- Whatever the bus is like, a request is refused for its value exactly if that is outside the range. Then nobody is asked
for anything, and the view is what it was. -/
def RefusesOutside (low high : Int) (request : Int32 → Method) : Prop :=
  ∀ (c : Controller) (millivolts : Int32) (h : History interface) (o : Outcome Answer),
    (c.call (request millivolts)).Ends h o →
      ((∃ x, o.1 = .error (.outOfRange x)) ↔ ¬(low ≤ millivolts.toInt ∧ millivolts.toInt ≤ high)) ∧
        (¬(low ≤ millivolts.toInt ∧ millivolts.toInt ≤ high) → o = (.error (.outOfRange millivolts), c) ∧ h = [])

theorem refusesOutside_setVoltage : RefusesOutside 0 5000 .setVoltage := by
  intro c millivolts h o he
  exact ends_asked rfl rfl he

theorem refusesOutside_setVcom : RefusesOutside (-5000) 0 .setVcom := by
  intro c millivolts h o he
  have hrange : 0 ≤ -millivolts.toInt ∧ -millivolts.toInt ≤ 5000 ↔ -5000 ≤ millivolts.toInt ∧ millivolts.toInt ≤ 0 := by
    omega
  rw [← hrange]
  exact ends_asked rfl rfl he

/-! ## What is read -/

theorem Plant.vcom_toNat_lt (w : Plant) : w.vcom.toNat < 512 :=
  Vcom.join_toNat_lt _ _

/-- A byte is read as the chip holds it, or the bus failed. -/
theorem play_readByte (register : UInt8) (w : Plant) :
    let r := (readByte register).play Plant.answer w
    r.state.chip = w.chip.later ∧
      (r.result = .ok (w.registers register) ∨
        (∃ failure, r.result = .error (.bus failure)) ∧ w.chip.fates 0 ≠ .carriedOut) := by
  simp only [readByte, Program.play_bind, play_onBus, RegisterChip.play_readRegister, Program.pure_eq, Program.play_done,
    Played.behind_result, Played.behind_state, RegisterChip.readOutcome]
  refine ⟨trivial, ?_⟩
  cases hfate : w.chip.fates 0 with
  | carriedOut => exact .inl rfl
  | fails failure => exact .inr ⟨⟨failure, rfl⟩, by simp⟩
  | empty => exact .inr ⟨⟨.short 1 0, rfl⟩, by simp⟩

/-- The register value is read as the chip holds it, or the bus failed. -/
theorem play_readCode (w : Plant) :
    let r := Vcom.readCode.play Plant.answer w
    r.result = .ok w.vcom ∨ (∃ failure, r.result = .error (.bus failure)) ∧ ¬w.Works := by
  intro r
  let low := (readByte Register.vcomLow).play Plant.answer w
  let high := (readByte Register.vcomHigh).play Plant.answer low.state
  obtain ⟨hlater, hlow⟩ : low.state.chip = _ ∧ _ := play_readByte Register.vcomLow w
  obtain ⟨-, hhigh⟩ := play_readByte Register.vcomHigh low.state
  rcases hlow with hlow | ⟨⟨failure, hlow⟩, hfate⟩
  · have hr : r.result = high.result.map (Vcom.join (w.registers Register.vcomLow)) := by
      simp only [r, Vcom.readCode, Program.play_bind, hlow, Program.pure_eq, Program.play_done, Played.behind_result]
      rfl
    rcases hhigh with hhigh | ⟨⟨failure, hhigh⟩, hfate⟩
    · have hsame : low.state.registers = w.registers := by
        rw [Plant.registers, hlater]
        rfl
      refine .inl ?_
      rw [hr, show high.result = _ from hhigh, hsame]
      rfl
    · refine .inr ⟨⟨failure, ?_⟩, fun hw => hfate ?_⟩
      · rw [hr, show high.result = _ from hhigh]
        rfl
      · rw [hlater]
        exact hw 1
  · refine .inr ⟨⟨failure, ?_⟩, fun hw => hfate (hw 0)⟩
    simp only [r, Vcom.readCode, Program.play_bind, hlow, Program.pure_eq, Program.play_done, Played.behind_result]

/-- What one unit of the register value counts for in an operation that reads it. -/
def Method.vcomUnit? : Method → Option Int
  | .getVoltage => some 10
  | .getVcom => some (-10)
  | .getMicrovolts => some 10000
  | _ => none

theorem Method.vcomCode_of_unit {m : Method} {unit : Int} (h : m.vcomUnit? = some unit) : m.vcomCode? = none := by
  cases m with
  | setVoltage | setVcom => cases h
  | _ => rfl

/-- What is made of a result can be part of the answer. -/
theorem Controller.keep_map {α β : Type} (c : Controller) (answer : β → Answer) (f : α → β)
    (p : Program interface (Result α)) : c.keep answer (do pure ((← p).map f)) = c.keep (fun a => answer (f a)) p := by
  unfold Controller.keep
  rw [bind_assoc]
  refine congrArg (p >>= ·) (funext fun r => ?_)
  cases r <;> rfl

/-- An operation that reads the register value answers it in units of its own, and nothing overflows on the way. -/
theorem call_of_vcomUnit (c : Controller) {m : Method} {unit : Int} (h : m.vcomUnit? = some unit) :
    ∃ answer : UInt16 → Answer, c.call m = c.keep answer Vcom.readCode ∧
      ∀ code, code.toNat < 512 → answer code = .int (unit * code.toNat) := by
  have hmilli {code : UInt16} (hcode : code.toNat < 512) : (Vcom.scaled 10 code).toInt = 10 * code.toNat :=
    Vcom.toInt_scaled (by decide) hcode
  have hmicro {code : UInt16} (hcode : code.toNat < 512) : (Vcom.scaled 10000 code).toInt = 10000 * code.toNat :=
    Vcom.toInt_scaled (by decide) hcode
  cases m with
  | getVoltage =>
    obtain rfl := Option.some.inj h
    exact ⟨_, c.keep_map _ _ _, fun code hcode => congrArg Answer.int (hmilli hcode)⟩
  | getMicrovolts =>
    obtain rfl := Option.some.inj h
    exact ⟨_, c.keep_map _ _ _, fun code hcode => congrArg Answer.int (hmicro hcode)⟩
  | getVcom =>
    obtain rfl := Option.some.inj h
    refine ⟨_, (c.keep_map _ _ _).trans (c.keep_map _ _ _), fun code hcode => congrArg Answer.int ?_⟩
    have hbound : (0 : Int) ≤ code.toNat := by omega
    rw [Vcom.toInt_neg (by rw [hmilli hcode]; omega), hmilli hcode, Int.neg_mul]
  | _ => cases h

namespace Session

variable (s : Session Plant) {m : Method}

/-- The operation, called next, answers this number, or else the bus failed. -/
def Reads (m : Method) (n : Int) : Prop :=
  (s.made Controller.call Plant.answer m).result = .ok (.int n) ∨
    ∃ failure, (s.made Controller.call Plant.answer m).result = .error (.bus failure)

theorem made_reading {unit : Int} (h : m.vcomUnit? = some unit) :
    (s.made Controller.call Plant.answer m).result = .ok (.int (unit * s.state.vcom.toNat)) ∨
      (∃ failure, (s.made Controller.call Plant.answer m).result = .error (.bus failure)) ∧ ¬s.state.Works := by
  obtain ⟨answer, hcall, hunit⟩ := call_of_vcomUnit s.view h
  obtain ⟨hresult, -⟩ := Session.made_keep Plant.answer s hcall
  rw [hresult]
  rcases play_readCode s.state with hok | ⟨⟨failure, herror⟩, hfails⟩
  · rw [hok]
    exact .inl (congrArg Except.ok (hunit _ s.state.vcom_toNat_lt))
  · rw [herror]
    exact .inr ⟨⟨failure, rfl⟩, hfails⟩

/-- On a bus that works, it answers. -/
theorem made_reading_of_works {unit : Int} (h : m.vcomUnit? = some unit) (hworks : s.state.Works) :
    (s.made Controller.call Plant.answer m).result = .ok (.int (unit * s.state.vcom.toNat)) := by
  rcases s.made_reading h with hok | ⟨-, hfails⟩
  · exact hok
  · exact absurd hworks hfails

theorem reads_of_unit {unit : Int} (h : m.vcomUnit? = some unit) : s.Reads m (unit * s.state.vcom.toNat) := by
  rcases s.made_reading h with hok | ⟨herror, -⟩
  · exact .inl hok
  · exact .inr herror

/-! ## What is stored -/

/-- Nothing but a request in range changes the register value. -/
theorem vcom_next_of_no_code (h : m.vcomCode? = none) : (s.next Controller.call Plant.answer m).state.vcom = s.state.vcom := by
  have hlow : (s.next Controller.call Plant.answer m).state.registers Register.vcomLow = _ :=
    registers_of_no_code s.view h (.inl rfl) s.state
  have hhigh : (s.next Controller.call Plant.answer m).state.registers Register.vcomHigh = _ :=
    registers_of_no_code s.view h (.inr rfl) s.state
  rw [Plant.vcom, Plant.vcom, hlow, hhigh]

theorem vcom_after {methods : List Method} (h : ∀ m ∈ methods, m.vcomCode? = none) :
    (s.after Controller.call Plant.answer methods).state.vcom = s.state.vcom := by
  refine Course.kept_after Controller.call Plant.answer (fun t => t.state.vcom = s.state.vcom) (fun t m hm ht => ?_) rfl
  rw [vcom_next_of_no_code t (h m hm), ht]

/-- Once a request is accepted, the register value counts the tens of its magnitude, whatever was there before. -/
theorem vcom_of_accepted {v : Int} (hm : m.magnitude? = some v)
    (hok : (s.made Controller.call Plant.answer m).result = .ok .unit) :
    ((s.next Controller.call Plant.answer m).state.vcom.toNat : Int) = v / 10 := by
  obtain ⟨millivolts, hasked⟩ := m.millivolts_of_magnitude hm
  have hv : 0 ≤ v ∧ v ≤ 5000 := by
    refine Classical.not_not.1 fun hout => ?_
    obtain ⟨hrefused, -⟩ := (ends_asked hasked hm (s.ends_made Controller.call Plant.answer m)).2 hout
    cases hok.symm.trans (congrArg Prod.fst hrefused)
  obtain ⟨code, hcode, hnat⟩ := m.vcomCode_of_magnitude hm hv
  obtain ⟨hlow, hhigh, hbegun⟩ := s.registers_next m
  have hstored : Call.stored? (s.made Controller.call Plant.answer m) = some code := by
    rw [Call.stored?, hok]
    exact hcode
  rw [hbegun code hstored] at hlow
  rw [hstored] at hhigh
  rw [Plant.vcom, hlow, hhigh, ← hnat]
  exact congrArg (fun c => (UInt16.toNat c : Int)) (join_bytes_of_vcomCode hcode)

end Session

/-- VCOM comes back. On every bus, `setVoltage` refuses exactly what is outside 0 to 5000 millivolts and `setVcom` what is
outside -5000 to 0, before anything is asked of the bus or computed; what passes is stored as its magnitude would be, so that
the negation has not overflowed. On a chip that nobody else writes, and from any session on: once a request was accepted, a
reading after any other operations, with any failures, answers the magnitude rounded down to a step of ten, its negation, or
a thousand times it, unless the reading itself fails on the bus. -/
theorem accepted_vcom_reads_back :
    (RefusesOutside 0 5000 .setVoltage ∧ RefusesOutside (-5000) 0 .setVcom ∧
      ∀ (c : Controller) (millivolts : Int32), -5000 ≤ millivolts.toInt → millivolts.toInt ≤ 0 →
        ∃ magnitude : Int32, magnitude.toInt = -millivolts.toInt ∧
          c.call (.setVcom millivolts) = c.call (.setVoltage magnitude)) ∧
    ∀ (s : Session Plant) (request : Method) (v : Int), request.magnitude? = some v →
      (s.made Controller.call Plant.answer request).result = .ok .unit →
        ∀ between : List Method, (∀ m ∈ between, m.magnitude? = none) →
          let later : Session Plant := (s.next Controller.call Plant.answer request).after Controller.call Plant.answer between
          later.Reads .getVoltage (10 * (v / 10)) ∧ later.Reads .getVcom (-(10 * (v / 10))) ∧
            later.Reads .getMicrovolts (1000 * (10 * (v / 10))) := by
  refine ⟨⟨refusesOutside_setVoltage, refusesOutside_setVcom, fun c millivolts hmin hmax => ?_⟩, ?_⟩
  · have hpasses : Vcom.writeSigned millivolts = Vcom.write (-millivolts) :=
      if_pos (Vcom.signed_in_range_iff.2 ⟨hmin, hmax⟩)
    exact ⟨-millivolts, Vcom.toInt_neg (by omega), congrArg (c.keep fun _ => .unit) hpasses⟩
  intro s request v hv hok between hbetween later
  have hkept : later.state.vcom = (s.next Controller.call Plant.answer request).state.vcom :=
    Session.vcom_after (s.next Controller.call Plant.answer request) fun m hm => m.vcomCode_of_no_magnitude (hbetween m hm)
  have hvcom : (later.state.vcom.toNat : Int) = v / 10 := by
    rw [hkept]
    exact s.vcom_of_accepted hv hok
  have hreads {m : Method} {unit : Int} (hm : m.vcomUnit? = some unit) : later.Reads m (unit * (v / 10)) := by
    rw [← hvcom]
    exact later.reads_of_unit hm
  refine ⟨hreads rfl, ?_, ?_⟩
  · rw [← Int.neg_mul]
    exact hreads rfl
  · rw [← Int.mul_assoc]
    exact hreads rfl

/-- A plant whose chip has every bit set and loses its fourth transfer. -/
def Plant.crowded : Plant :=
  ⟨⟨fun _ => 0xff, fun i => if i = 3 then .fails (.adapter .arbitrationLoss) else .carriedOut⟩, fun _ => .ok true⟩

/-- There -2505 mV are stored over the bits of the high byte that do not count, and outlast a switch-off that fails. -/
theorem accepted_vcom_reads_back_crowded :
    let s : Session Plant := { view := {}, state := Plant.crowded }
    let later : Session Plant :=
      (s.next Controller.call Plant.answer (.setVcom (-2505))).after Controller.call Plant.answer
        [.disable, .getVcom, .readTemperature]
    s.state.vcom = 511 ∧ (s.made Controller.call Plant.answer (.setVcom (-2505))).result = .ok .unit ∧
      later.calls.map Called.result =
        [.ok .unit, .error (.bus (.adapter .arbitrationLoss)), .ok (.int (-2500)), .ok (.int (-1))] ∧
      later.Reads .getVoltage 2500 ∧ later.Reads .getVcom (-2500) ∧ later.Reads .getMicrovolts 2500000 := by
  have hok : (Course.made Controller.call Plant.answer { view := {}, state := Plant.crowded } (.setVcom (-2505))).result =
      .ok .unit := by
    rfl
  obtain ⟨-, hreads⟩ := accepted_vcom_reads_back
  obtain ⟨hmilli, hsigned, hmicro⟩ := hreads { view := {}, state := Plant.crowded } (.setVcom (-2505)) 2505 rfl hok
    [.disable, .getVcom, .readTemperature] (by decide)
  exact ⟨by decide, hok, by rfl, hmilli, hsigned, hmicro⟩

end PenRail.Rail
