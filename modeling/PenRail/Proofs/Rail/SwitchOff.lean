import PenRail.Proofs.Rail.StateMachine
import PenRail.Proofs.Rail.Switches

/-!
# Switching off, all or nothing

A switch-off enters the phase on the way off before it knows whether the chip will do as told, and has to come back from
there if it does not. Coming back overwrites the flags with what the phase says of them, so a view is found again exactly
if it was consistent, which it always is between operations. The chip and the clock are the same in either case: one
attempt to clear the on/off bit, and one ramp-down wait.
-/

namespace PenRail.Rail

open Bus (RegisterChip)

/-- An attempt to set or clear the on/off bit is one transfer or two. -/
theorem Attempt.length_le {on : Bool} {h : History interface} {r : Except Bus.Failure Unit} (ha : Attempt on h r) :
    h.length ≤ 2 := by
  cases ha <;> simp

/-- On a plant: the attempt to clear the bit, and the ramp-down wait behind it. -/
theorem acts_play_disable (c : Controller) (w : Plant) :
    acts (c.disable.play Plant.answer w).history = ((setOnOff false).play Plant.answer w).history ++ [rampDown] := by
  have hacts := (tally_setOnOff false w).1
  have hwait : acts [(⟨.delay (settleTime * millisecond), ()⟩ : Exchange interface)] = [rampDown] := rfl
  simp only [Controller.disable, Program.play_bind, play_enter, play_switchOff]
  cases hoff : ((setOnOff false).play Plant.answer w).result with
  | error failure =>
    simp only [Program.play_bind, play_enter, Program.pure_eq, Program.play_done, Played.behind_history, acts_append,
      Controller.acts_moves, hacts, hwait, List.nil_append, List.append_nil]
  | ok =>
    simp only [Program.play_bind, play_enter, Program.pure_eq, Program.play_done, Played.behind_history, acts_append,
      Controller.acts_moves, hacts, hwait, List.nil_append, List.append_nil]

/-- A switch-off is all or nothing, from every view and over every chip, whatever becomes of its transfers. What it does is
one attempt to clear the on/off bit, of two transfers at most, and behind it one ramp-down wait of 30 milliseconds; it does
not read the line. It succeeds exactly if that attempt does. Then the rail is disabled, with both flags down and the last
fault as it was, the bit is clear, and all other bits of all registers are what they were. If it fails no register has
changed; and the view has not changed either exactly if its flags were those of its phase. -/
theorem disable_all_or_nothing (c : Controller) (w : Plant) :
    let off := (setOnOff false).play Plant.answer w
    let r := c.disable.play Plant.answer w
    (acts r.history = off.history ++ [⟨.delay (30 * millisecond), ()⟩] ∧ Attempt false off.history off.result ∧
      tally r.history = ⟨0, [30 * millisecond], off.history⟩ ∧ off.history.length ≤ 2) ∧
    (r.result.1 = .ok () ↔ off.result = .ok ()) ∧
    (r.result.1 = .ok () →
      r.result.2 = { c with phase := .disabled, enabled := false, powerGoodSeen := false } ∧ r.state.isOn = false ∧
        r.state.registers Register.operationMode &&& ~~~Register.onOff =
          w.registers Register.operationMode &&& ~~~Register.onOff ∧
        ∀ register ≠ Register.operationMode, r.state.registers register = w.registers register) ∧
    (∀ e, r.result.1 = .error e →
      r.state.registers = w.registers ∧
        (r.result.2 = c ↔ c.enabled = c.phase.isOn ∧ (c.phase = .disabled → c.powerGoodSeen = false))) := by
  intro off r
  have hacts : acts r.history = off.history ++ [rampDown] := acts_play_disable c w
  have hattempt : Attempt false off.history off.result := ends_setOnOff (Program.ends_play Plant.answer (setOnOff false) w)
  refine ⟨⟨hacts, hattempt, ?_, hattempt.length_le⟩, ?_⟩
  · have htally : tally off.history = ⟨0, [], off.history⟩ := (tally_setOnOff false w).2
    have hwait : tally [rampDown] = ⟨0, [30 * millisecond], []⟩ := rfl
    rw [← tally_acts, hacts, tally_append, htally, hwait]
    simp only [Tally.append, Nat.add_zero, List.nil_append, List.append_nil]
  rcases registers_disable c w with ⟨hoff, hresult, hset⟩ | ⟨failure, hoff, hresult, hsame⟩
  · have hok : r.result.1 = .ok () := congrArg Prod.fst hresult
    have hmode : r.state.registers Register.operationMode = modeByte false (w.registers Register.operationMode) := by
      rw [hset, Plant.withOnOff, RegisterChip.store_same]
    refine ⟨⟨fun _ => hoff, fun _ => hok⟩, fun _ => ?_, fun e herror => by cases hok.symm.trans herror⟩
    refine ⟨congrArg Prod.snd hresult, isOn_of_registers hset, ?_, fun register hne => ?_⟩
    · rw [hmode, modeByte_and_not_onOff]
    · rw [hset, Plant.withOnOff, RegisterChip.store_of_ne _ _ hne]
  · have herror : r.result.1 = .error (.bus failure) := congrArg Prod.fst hresult
    have hback : r.result.2 = c ↔ c.Consistent := by
      rw [show r.result.2 = _ from congrArg Prod.snd hresult]
      exact c.moveTo_phase_eq_iff
    refine ⟨⟨fun hok => ?_, fun hok => ?_⟩, fun hok => ?_, fun e _ => ⟨hsame, hback.trans ?_⟩⟩
    · cases herror.symm.trans hok
    · cases hoff.symm.trans hok
    · cases herror.symm.trans hok
    · exact ⟨fun h => ⟨h.enabled, h.unseen⟩, fun h => ⟨h.1, h.2⟩⟩

/-- A plant whose chip is switched on and does not acknowledge its second transfer. -/
def Plant.clinging : Plant :=
  ⟨⟨fun _ => 0x85, fun i => if i = 1 then .fails (.adapter (.noAcknowledge .data)) else .carriedOut⟩, fun _ => .ok true⟩

/-- The view of an enabled rail, with a fault recorded. -/
def Controller.upWithFault : Controller :=
  ⟨.enabled, true, true, .uvlo⟩

/-- There the first switch-off of an enabled rail fails at its write, and leaves view and chip as they were; the second one
goes through. Neither forgets the fault. -/
theorem disable_all_or_nothing_clinging :
    let failed := Controller.upWithFault.disable.play Plant.answer Plant.clinging
    let again := Controller.upWithFault.disable.play Plant.answer failed.state
    failed.result = (.error (.bus (.adapter (.noAcknowledge .data))), Controller.upWithFault) ∧
      failed.state.registers = Plant.clinging.registers ∧
      again.result = (.ok (), ⟨.disabled, false, false, .uvlo⟩) ∧ again.state.isOn = false := by
  have herror : (Controller.upWithFault.disable.play Plant.answer Plant.clinging).result.1 =
      .error (.bus (.adapter (.noAcknowledge .data))) := by
    rfl
  have hok : (Controller.upWithFault.disable.play Plant.answer
      (Controller.upWithFault.disable.play Plant.answer Plant.clinging).state).result.1 = .ok () := by
    rfl
  obtain ⟨-, -, -, hfails⟩ := disable_all_or_nothing Controller.upWithFault Plant.clinging
  obtain ⟨-, -, hsucceeds, -⟩ :=
    disable_all_or_nothing Controller.upWithFault (Controller.upWithFault.disable.play Plant.answer Plant.clinging).state
  obtain ⟨hsame, hback⟩ := hfails _ herror
  obtain ⟨hoff, hclear, -⟩ := hsucceeds hok
  exact ⟨Prod.ext herror (hback.2 ⟨rfl, nofun⟩), hsame, Prod.ext hok hoff, hclear⟩

end PenRail.Rail
