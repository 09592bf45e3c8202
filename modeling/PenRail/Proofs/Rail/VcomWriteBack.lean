import PenRail.Proofs.Rail.VcomReadBack

/-!
# VCOM, read and written back

Nine bits hold more than may be asked for: steps of ten up to 511, where 5000 millivolts are 500. So a chip can hold what
nobody may store, and a reading of it is refused when it is written back. Up to 500 steps the way round is closed.
-/

namespace PenRail.Rail

open Bus (RegisterChip)

theorem writeCode_of_works {w : Plant} (hworks : w.Works) (code : UInt16) :
    ((Vcom.writeCode code).play Plant.answer w).result = .ok () := by
  have hwrite {u : Plant} (hu : u.Works) (register value : UInt8) :
      ((onBus (Bus.writeRegister register value)).play Plant.answer u).result = .ok () := by
    rw [play_onBus, RegisterChip.play_writeRegister, RegisterChip.writeOutcome, hu 0]
  rw [play_writeCode_begun (hwrite hworks _ _), hwrite (hworks.play _)]
  rfl

namespace Session

/-- On a bus that works all readings answer, and leave the register value and the bus as they were. -/
theorem after_readings {s : Session Plant} (hworks : s.state.Works) {looks : List Method} {units : List Int}
    (hlooks : looks.map Method.vcomUnit? = units.map some) :
    let later := s.after Controller.call Plant.answer looks
    later.state.Works ∧ later.state.vcom = s.state.vcom ∧
      later.calls.map Called.result =
        s.calls.map Called.result ++ units.map fun unit => .ok (.int (unit * s.state.vcom.toNat)) := by
  induction looks generalizing s units with
  | nil =>
    obtain rfl : units = [] := List.map_eq_nil_iff.1 hlooks.symm
    exact ⟨hworks, rfl, (List.append_nil _).symm⟩
  | cons m rest ih =>
    obtain ⟨unit, units, rfl, hm, hrest⟩ := List.map_eq_cons_iff.1 hlooks.symm
    have hunit : m.vcomUnit? = some unit := hm.symm
    have hvcom := s.vcom_next_of_no_code (Method.vcomCode_of_unit hunit)
    obtain ⟨hlater, hkept, hresults⟩ := ih (s := s.next Controller.call Plant.answer m) (hworks.play _) hrest.symm
    rw [hvcom] at hkept hresults
    refine ⟨hlater, hkept, ?_⟩
    rw [show (s.after Controller.call Plant.answer (m :: rest)).calls.map Called.result = _ from hresults]
    simp only [Course.next_calls, List.map_append, List.map_cons, List.map_nil, s.made_reading_of_works hunit hworks,
      List.append_assoc, List.cons_append, List.nil_append]

/-- On a bus that works a request in range is accepted. -/
theorem made_of_works {s : Session Plant} (hworks : s.state.Works) {m : Method} {code : UInt16}
    (hm : m.vcomCode? = some code) : (s.made Controller.call Plant.answer m).result = .ok .unit := by
  obtain ⟨hresult, -⟩ := Session.made_keep Plant.answer s (call_of_vcomCode s.view hm)
  rw [hresult, writeCode_of_works hworks code]
  rfl

end Session

/-- Whether what is read can be written back, over every chip on a bus that works. The three readings agree on a number
of steps below 512. If it is at most 500, the voltage that was read is in range and can be stored, and is read again as
before. If it is more, the voltage is below -5000 millivolts and is refused, and the readings stay what they were. -/
theorem read_vcom_writes_back (s : Session Plant) (hworks : s.state.Works) :
    let steps := s.state.vcom.toNat
    let looks : List Method := [.getVcom, .getVoltage, .getMicrovolts]
    let readings : List (Result Answer) :=
      [.ok (.int (-10 * steps)), .ok (.int (10 * steps)), .ok (.int (10000 * steps))]
    steps < 512 ∧ ∃ v : Int32, v.toInt = -10 * steps ∧ (-5000 ≤ v.toInt ∧ v.toInt ≤ 0 ↔ steps ≤ 500) ∧
      (s.after Controller.call Plant.answer (looks ++ .setVcom v :: looks)).calls.map Called.result =
        s.calls.map Called.result ++ readings ++
          (if steps ≤ 500 then .ok .unit else .error (.outOfRange v)) :: readings := by
  intro steps looks readings
  have hsteps : steps < 512 := s.state.vcom_toNat_lt
  have hv : (Int32.ofInt (-10 * steps)).toInt = -10 * steps := Int32.toInt_ofInt_of_le (by omega) (by omega)
  generalize Int32.ofInt (-10 * steps) = v at hv
  refine ⟨hsteps, v, hv, by omega, ?_⟩
  let seen : Session Plant := s.after Controller.call Plant.answer looks
  let told : Session Plant := seen.next Controller.call Plant.answer (.setVcom v)
  have hunits : looks.map Method.vcomUnit? = [-10, 10, 10000].map some := rfl
  obtain ⟨hseen, hkept, hbefore⟩ := Session.after_readings hworks hunits
  have htold : told.state.Works := hseen.play _
  -- Either way the chip holds the same steps afterwards: what is stored is what was there.
  have hstored : (seen.made Controller.call Plant.answer (.setVcom v)).result =
      (if steps ≤ 500 then .ok .unit else .error (.outOfRange v)) ∧ told.state.vcom = s.state.vcom := by
    have hm : (Method.setVcom v).magnitude? = some (-v.toInt) := rfl
    by_cases hmost : steps ≤ 500
    · obtain ⟨code, hcode, -⟩ := Method.vcomCode_of_magnitude hm (by omega)
      have hok := Session.made_of_works hseen hcode
      have hnat : (told.state.vcom.toNat : Int) = -v.toInt / 10 := seen.vcom_of_accepted hm hok
      have hsame : told.state.vcom.toNat = steps := by omega
      exact ⟨hok.trans (if_pos hmost).symm, UInt16.toNat_inj.1 hsame⟩
    · have hnone := Method.vcomCode_of_out_of_range hm (by omega)
      obtain ⟨hrefused, -⟩ := (ends_asked rfl hm (seen.ends_made Controller.call Plant.answer (.setVcom v))).2 (by omega)
      exact ⟨(congrArg Prod.fst hrefused).trans (if_neg hmost).symm, (seen.vcom_next_of_no_code hnone).trans hkept⟩
  obtain ⟨hanswer, hsame⟩ := hstored
  obtain ⟨-, -, hafter⟩ := Session.after_readings htold hunits
  have hlater : s.after Controller.call Plant.answer (looks ++ .setVcom v :: looks) =
      told.after Controller.call Plant.answer looks := List.foldl_append
  rw [hlater, hafter, hsame]
  simp only [told, Course.next, List.map_append, List.map_cons, List.map_nil, hanswer]
  rw [hbefore, List.append_assoc]
  rfl

/-- A plant whose chip holds all nine bits of VCOM, on a bus that works. -/
def Plant.brimming : Plant :=
  ⟨⟨fun register => if register = Register.vcomLow then 0xff else if register = Register.vcomHigh then 0x01 else 0x00,
    fun _ => .carriedOut⟩, fun _ => .ok false⟩

theorem Plant.brimming_works : Plant.brimming.Works :=
  fun _ => rfl

/-- There the voltage that is read is refused when it is to be written. -/
theorem read_vcom_writes_back_brimming :
    let s : Session Plant := { view := {}, state := Plant.brimming }
    s.state.Works ∧ ∃ v : Int32, v.toInt = -5110 ∧
      (s.after Controller.call Plant.answer [.getVcom, .getVoltage, .getMicrovolts, .setVcom v, .getVcom, .getVoltage,
        .getMicrovolts]).calls.map Called.result =
          [.ok (.int (-5110)), .ok (.int 5110), .ok (.int 5110000), .error (.outOfRange v), .ok (.int (-5110)),
            .ok (.int 5110), .ok (.int 5110000)] := by
  obtain ⟨-, v, hv, -, hresults⟩ := read_vcom_writes_back { view := {}, state := Plant.brimming } Plant.brimming_works
  exact ⟨Plant.brimming_works, v, hv, hresults⟩

/-- So what is read cannot always be written back, nor is it always in the range that is promised. -/
theorem not_always_vcom_writes_back :
    ¬∀ w : Plant, w.Works →
      let s : Session Plant := { view := {}, state := w }
      ∃ v : Int32, (-5000 ≤ v.toInt ∧ v.toInt ≤ 0) ∧
        (s.made Controller.call Plant.answer .getVcom).result = .ok (.int v.toInt) ∧
        ((s.next Controller.call Plant.answer .getVcom).made Controller.call Plant.answer (.setVcom v)).result = .ok .unit := by
  intro h
  obtain ⟨v, ⟨hmin, -⟩, hread, -⟩ := h Plant.brimming Plant.brimming_works
  have hfull : (Course.made Controller.call Plant.answer { view := {}, state := Plant.brimming } .getVcom).result =
      .ok (.int (-5110)) := by
    rfl
  have hv : v.toInt = -5110 := Answer.int.inj (Except.ok.inj (hread.symm.trans hfull))
  omega

end PenRail.Rail
