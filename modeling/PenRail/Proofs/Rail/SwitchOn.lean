import PenRail.Proofs.Rail.Phases
import PenRail.Proofs.Rail.Plant

/-!
# Switching on, exit by exit

On a plant the script of the power-good line decides how polling ends: with the first reading that is not low, if that
comes within the budget. From that follows each exit of `enable` with all that happened before it: the readings, the
waits, the transfers, the view and the registers.
-/

namespace PenRail.Rail

open Bench.Chip (store)
open Bus (RegisterChip)

/-- So many readings later. -/
def Plant.lookedTimes (w : Plant) (n : Nat) : Plant :=
  { w with levels := fun i => w.levels (i + n) }

theorem Plant.looked_lookedTimes (w : Plant) (n : Nat) : (w.lookedTimes n).looked = w.lookedTimes (n + 1) := by
  unfold Plant.looked Plant.lookedTimes
  simp only [Nat.add_assoc, Nat.add_comm 1]

/-- The line was read so many times and was low, and each time a millisecond was waited. -/
def lows : Nat → History interface
  | 0 => []
  | n + 1 => ⟨.powerGood, .ok false⟩ :: ⟨.delay millisecond, ()⟩ :: lows n

theorem mem_lows {n : Nat} {x : Exchange interface} (hx : x ∈ lows n) :
    x = ⟨.powerGood, .ok false⟩ ∨ x = ⟨.delay millisecond, ()⟩ := by
  induction n with
  | zero => cases hx
  | succ n ih =>
    rcases List.mem_cons.1 hx with rfl | hx
    · exact .inl rfl
    rcases List.mem_cons.1 hx with rfl | hx
    · exact .inr rfl
    · exact ih hx

/-! ## Polling -/

/-- As long as the line is low, polling goes on. -/
theorem play_pollFrom_lows (n waits budget : Nat) (w : Plant) (hlow : ∀ i < n, w.levels i = .ok false) :
    (pollFrom waits (n + budget)).play Plant.answer w =
      ((pollFrom (waits + n) budget).play Plant.answer (w.lookedTimes n)).behind (lows n) := by
  induction n generalizing waits w with
  | zero =>
    rw [Nat.zero_add]
    rfl
  | succ n ih =>
    have hrest := ih (waits + 1) w.looked fun i hi => hlow (i + 1) (by omega)
    have hfirst : w.levels 0 = .ok false := hlow 0 (by omega)
    rw [Nat.add_right_comm, pollFrom, Program.play_bind, Program.play_request]
    simp only [Plant.answer, hfirst]
    rw [Program.play_bind, play_delay, hrest]
    rw [show waits + 1 + n = waits + (n + 1) by omega]
    rfl

/-- Polling goes by the first reading that is not low, if the budget lasts until then. -/
theorem play_poll_of_lows {j : Nat} {w : Plant} (hj : j < pollLimit) (hlow : ∀ i < j, w.levels i = .ok false) :
    poll.play Plant.answer w =
      ((pollFrom j (pollLimit - j - 1 + 1)).play Plant.answer (w.lookedTimes j)).behind (lows j) := by
  have h := play_pollFrom_lows j 0 (pollLimit - j - 1 + 1) w hlow
  rwa [show j + (pollLimit - j - 1 + 1) = pollLimit by omega, Nat.zero_add] at h

theorem play_poll_high {j : Nat} {w : Plant} (hj : j < pollLimit) (hlow : ∀ i < j, w.levels i = .ok false)
    (hhigh : w.levels j = .ok true) :
    poll.play Plant.answer w = ⟨.ok (some j), w.lookedTimes (j + 1), lows j ++ [sawHigh]⟩ := by
  have hnow : (w.lookedTimes j).levels 0 = .ok true := by simpa [Plant.lookedTimes] using hhigh
  rw [play_poll_of_lows hj hlow, pollFrom, Program.play_bind, Program.play_request]
  simp only [Plant.answer, hnow, Plant.looked_lookedTimes]
  rfl

theorem play_poll_unreadable {j : Nat} {w : Plant} {reason : String} (hj : j < pollLimit)
    (hlow : ∀ i < j, w.levels i = .ok false) (herror : w.levels j = .error reason) :
    poll.play Plant.answer w =
      ⟨.error reason, w.lookedTimes (j + 1),
        lows j ++ [⟨.powerGood, .error reason⟩, ⟨.log ⟨.error, "Failed to read pgood gpio: " ++ reason⟩, ()⟩]⟩ := by
  have hnow : (w.lookedTimes j).levels 0 = .error reason := by simpa [Plant.lookedTimes] using herror
  rw [play_poll_of_lows hj hlow, pollFrom, Program.play_bind, Program.play_request]
  simp only [Plant.answer, hnow, Plant.looked_lookedTimes]
  rfl

theorem play_poll_low {w : Plant} (hlow : ∀ i < pollLimit, w.levels i = .ok false) :
    poll.play Plant.answer w = ⟨.ok none, w.lookedTimes pollLimit, lows pollLimit⟩ := by
  have h := play_pollFrom_lows pollLimit 0 0 w hlow
  rw [Nat.add_zero] at h
  rw [poll, h, Nat.zero_add]
  simp [pollFrom, Played.behind]

/-! ## The exits -/

/-- The chip alone decides what becomes of the on/off bit: the script of the line may be any. -/
theorem play_setOnOff_levels (on : Bool) (w : Plant) (levels : Nat → Except String Bool) :
    (setOnOff on).play Plant.answer { w with levels } =
      ⟨((setOnOff on).play Plant.answer w).result, { (setOnOff on).play Plant.answer w |>.state with levels },
        ((setOnOff on).play Plant.answer w).history⟩ := by
  simp only [setOnOff, play_onBus]

theorem play_switchOff (w : Plant) :
    switchOff.play Plant.answer w =
      ⟨((setOnOff false).play Plant.answer w).result, ((setOnOff false).play Plant.answer w).state,
        ((setOnOff false).play Plant.answer w).history ++ [⟨.delay (settleTime * millisecond), ()⟩]⟩ := by
  simp only [switchOff, Program.play_bind, play_delay, Program.pure_eq, Program.play_done]
  rfl

theorem tally_lows (n : Nat) : acts (lows n) = lows n ∧ tally (lows n) = ⟨n, List.replicate n millisecond, []⟩ := by
  induction n with
  | zero => exact ⟨rfl, rfl⟩
  | succ n ih =>
    obtain ⟨hacts, htally⟩ := ih
    have hcons : lows (n + 1) = [⟨.powerGood, .ok false⟩, ⟨.delay millisecond, ()⟩] ++ lows n := rfl
    rw [hcons, acts_append, tally_append, hacts, htally, List.replicate_succ, Nat.add_comm n 1]
    exact ⟨rfl, rfl⟩

@[simp] theorem tally_delay (nanoseconds : Nat) :
    tally [(⟨.delay nanoseconds, ()⟩ : Exchange interface)] = ⟨0, [nanoseconds], []⟩ := rfl

theorem tally_setOnOff (on : Bool) (w : Plant) :
    let h := ((setOnOff on).play Plant.answer w).history
    acts h = h ∧ tally h = ⟨0, [], h⟩ :=
  tally_of_only (only_setOnOff on) (Program.ends_play _ _ _)

/-- Giving up on a plant: the switch-off decides how it ends, and is all that is done. -/
theorem play_giveUp (c : Controller) (w : Plant) :
    let off := (setOnOff false).play Plant.answer w
    let r := c.giveUp.play Plant.answer w
    r.state = off.state ∧ acts r.history = off.history ++ [⟨.delay (settleTime * millisecond), ()⟩] ∧
      r.result = match off.result with
        | .ok () => (.error (.timeout pollLimit), c.moveTo .disabled)
        | .error failure => (.error (.timeoutRailOn failure), c.moveTo .enabling) := by
  have hacts := (tally_setOnOff false w).1
  simp only [Controller.giveUp, Program.play_bind, play_say, play_enter, play_switchOff]
  cases hoff : ((setOnOff false).play Plant.answer w).result with
  | error failure =>
    simp only [Program.play_bind, play_say, play_enter, Program.pure_eq, Program.play_done, Played.behind_state,
      Played.behind_result, Played.behind_history, acts_append, Controller.acts_moves, hacts]
    rw [Controller.moveTo_moveTo _ _ (by decide)]
    simp [acts, isAct]
  | ok =>
    simp only [Program.play_bind, play_enter, Program.pure_eq, Program.play_done, Played.behind_state,
      Played.behind_result, Played.behind_history, acts_append, Controller.acts_moves, hacts]
    rw [Controller.moveTo_moveTo _ _ (by decide)]
    simp [acts, isAct]

/-- A switch-off on a plant: the chip decides whether the rail is off or the view is what it was. -/
theorem play_disable (c : Controller) (w : Plant) :
    let off := (setOnOff false).play Plant.answer w
    let r := c.disable.play Plant.answer w
    r.state = off.state ∧
      r.result = match off.result with
        | .ok () => (.ok (), c.moveTo .disabled)
        | .error failure => (.error (.bus failure), c.moveTo c.phase) := by
  simp only [Controller.disable, Program.play_bind, play_enter, play_switchOff]
  cases hoff : ((setOnOff false).play Plant.answer w).result with
  | error failure =>
    simp only [Program.play_bind, play_enter, Program.pure_eq, Program.play_done, Played.behind_result, Played.behind_state]
    rw [Controller.moveTo_moveTo _ _ (by decide)]
    exact ⟨trivial, rfl⟩
  | ok =>
    simp only [Program.play_bind, play_enter, Program.pure_eq, Program.play_done, Played.behind_result, Played.behind_state]
    rw [Controller.moveTo_moveTo _ _ (by decide)]
    exact ⟨trivial, rfl⟩

/-- A switch-off is all or nothing, as the clearing of the bit is. -/
theorem registers_disable (c : Controller) (w : Plant) :
    let off := (setOnOff false).play Plant.answer w
    let r := c.disable.play Plant.answer w
    (off.result = .ok () ∧ r.result = (.ok (), c.moveTo .disabled) ∧ r.state.registers = w.withOnOff false) ∨
      ∃ failure, off.result = .error failure ∧ r.result = (.error (.bus failure), c.moveTo c.phase) ∧
        r.state.registers = w.registers := by
  intro off r
  obtain ⟨hstate, hresult⟩ := play_disable c w
  have hregisters : r.state.registers = off.state.registers := congrArg Plant.registers hstate
  rw [hregisters]
  rcases (registers_setOnOff false w).2 with ⟨hoff, hset⟩ | ⟨failure, hoff, hsame⟩
  · rw [hoff] at hresult
    exact .inl ⟨hoff, hresult, hset⟩
  · rw [hoff] at hresult
    exact .inr ⟨failure, hoff, hresult, hsame⟩

/-- The chip refused the switch-on, and that was all. -/
theorem play_enable_refused {c : Controller} {w : Plant} (hc : c.phase ≠ .enabled) {failure : Bus.Failure}
    (hon : ((setOnOff true).play Plant.answer w).result = .error failure) :
    let on := (setOnOff true).play Plant.answer w
    let r := c.enable.play Plant.answer w
    r.result = (.error (.bus failure), c.moveTo .disabled) ∧ r.state = on.state ∧ acts r.history = on.history := by
  have hacts := (tally_setOnOff true w).1
  simp only [Controller.enable, if_neg hc, Program.play_bind, play_enter, hon]
  simp only [Program.pure_eq, Program.play_done, Played.behind_state, Played.behind_result, Played.behind_history,
    acts_append, Controller.acts_moves, hacts]
  rw [Controller.moveTo_moveTo _ _ (by decide)]
  simp [acts]

/-- The chip was switched on, and what follows is waiting for power good. -/
theorem play_enable_sent {c : Controller} {w : Plant} (hc : c.phase ≠ .enabled)
    (hon : ((setOnOff true).play Plant.answer w).result = .ok ()) :
    let on := (setOnOff true).play Plant.answer w
    let wait := (c.moveTo .enabling).awaitPower.play Plant.answer on.state
    let r := c.enable.play Plant.answer w
    r.result = wait.result ∧ r.state = wait.state ∧ acts r.history = on.history ++ acts wait.history ∧
      tally r.history =
        ⟨(tally wait.history).reads, (tally wait.history).delays, on.history ++ (tally wait.history).transfers⟩ := by
  intro on wait r
  have hr : r = wait.behind (c.moves .enabling ++ on.history) := by
    simp only [r, Controller.enable, if_neg hc, Program.play_bind, play_enter, hon]
    simp only [Played.behind, List.append_assoc]
    rfl
  obtain ⟨hacts, htally⟩ := tally_setOnOff true w
  have hdone : acts r.history = on.history ++ acts wait.history := by
    rw [hr, Played.behind_history, acts_append, acts_append, Controller.acts_moves, hacts]
    rfl
  refine ⟨by rw [hr, Played.behind_result], by rw [hr, Played.behind_state], hdone, ?_⟩
  rw [← tally_acts, hdone, tally_append, htally, tally_acts]
  simp [Tally.append, on]

/-- Once it was switched on: a high reading enables the rail. -/
theorem play_awaitPower_high {c : Controller} {w : Plant} {j : Nat} (hj : j < pollLimit)
    (hlow : ∀ i < j, w.levels i = .ok false) (hhigh : w.levels j = .ok true) :
    let r := (c.moveTo .enabling).awaitPower.play Plant.answer w
    r.result = (.ok (), ({ c with powerGoodSeen := true } : Controller).moveTo .enabled) ∧
      r.state = w.lookedTimes (j + 1) ∧ acts r.history = lows j ++ [sawHigh] := by
  simp only [Controller.awaitPower, Program.play_bind, play_poll_high hj hlow hhigh, play_say, play_enter, Program.pure_eq,
    Program.play_done, Played.behind_state, Played.behind_result, Played.behind_history, acts_append, (tally_lows j).1,
    Controller.acts_moves]
  exact ⟨rfl, trivial, List.append_nil _⟩

/-- A reading that fails leaves the rail as it is. -/
theorem play_awaitPower_unreadable {c : Controller} {w : Plant} {j : Nat} {reason : String} (hj : j < pollLimit)
    (hlow : ∀ i < j, w.levels i = .ok false) (herror : w.levels j = .error reason) :
    let r := c.awaitPower.play Plant.answer w
    r.result = (.error (.pin reason), c) ∧ r.state = w.lookedTimes (j + 1) ∧
      acts r.history = lows j ++ [⟨.powerGood, .error reason⟩] := by
  simp only [Controller.awaitPower, Program.play_bind, play_poll_unreadable hj hlow herror, Program.pure_eq,
    Program.play_done, Played.behind_state, Played.behind_result, Played.behind_history, acts_append, (tally_lows j).1]
  exact ⟨trivial, trivial, List.append_nil _⟩

/-- A line that stays low through the budget ends in giving up. -/
theorem play_awaitPower_low {c : Controller} {w : Plant} (hlow : ∀ i < pollLimit, w.levels i = .ok false) :
    let off := (setOnOff false).play Plant.answer w
    let r := (c.moveTo .enabling).awaitPower.play Plant.answer w
    r.state.registers = off.state.registers ∧
      acts r.history = lows pollLimit ++ (off.history ++ [⟨.delay (settleTime * millisecond), ()⟩]) ∧
      r.result = match off.result with
        | .ok () => (.error (.timeout pollLimit), c.moveTo .disabled)
        | .error failure => (.error (.timeoutRailOn failure), c.moveTo .enabling) := by
  obtain ⟨hstate, hacts, hresult⟩ := play_giveUp (c.moveTo .enabling) (w.lookedTimes pollLimit)
  rw [Plant.lookedTimes, play_setOnOff_levels] at hstate hacts hresult
  rw [Controller.moveTo_moveTo _ _ (by decide), Controller.moveTo_moveTo _ _ (by decide)] at hresult
  simp only [Controller.awaitPower, Program.play_bind, play_poll_low hlow, Played.behind_state, Played.behind_result,
    Played.behind_history, acts_append, (tally_lows pollLimit).1]
  have hregisters := congrArg Plant.registers hstate
  exact ⟨hregisters, congrArg (lows pollLimit ++ ·) hacts, hresult⟩

/-- Switched on, and the first reading that is not low is high. -/
theorem play_enable_high {c : Controller} {w : Plant} (hc : c.phase ≠ .enabled) {j : Nat} (hj : j < pollLimit)
    (hon : ((setOnOff true).play Plant.answer w).result = .ok ()) (hlow : ∀ i < j, w.levels i = .ok false)
    (hhigh : w.levels j = .ok true) :
    let on := (setOnOff true).play Plant.answer w
    let r := c.enable.play Plant.answer w
    r.result = (.ok (), ({ c with powerGoodSeen := true } : Controller).moveTo .enabled) ∧
      r.state = on.state.lookedTimes (j + 1) ∧ tally r.history = ⟨j + 1, List.replicate j millisecond, on.history⟩ := by
  intro on r
  obtain ⟨hlevels, -⟩ := registers_setOnOff true w
  obtain ⟨hresult, hstate, -, htally⟩ := play_enable_sent hc hon
  obtain ⟨hr, hkept, hdone⟩ := play_awaitPower_high (c := c) hj (hlevels ▸ hlow) (hlevels ▸ hhigh)
  refine ⟨hresult.trans hr, hstate.trans hkept, htally.trans ?_⟩
  rw [← tally_acts, hdone, tally_append, (tally_lows j).2]
  simp [Tally.append, tally, sawHigh, isReading, delay?, isTransfer, on]

/-- Switched on, and the first reading that is not low fails. -/
theorem play_enable_unreadable {c : Controller} {w : Plant} (hc : c.phase ≠ .enabled) {j : Nat} {reason : String}
    (hj : j < pollLimit) (hon : ((setOnOff true).play Plant.answer w).result = .ok ()) (hlow : ∀ i < j, w.levels i = .ok false)
    (herror : w.levels j = .error reason) :
    let on := (setOnOff true).play Plant.answer w
    let r := c.enable.play Plant.answer w
    r.result = (.error (.pin reason), c.moveTo .enabling) ∧
      r.state = on.state.lookedTimes (j + 1) ∧ tally r.history = ⟨j + 1, List.replicate j millisecond, on.history⟩ := by
  intro on r
  obtain ⟨hlevels, -⟩ := registers_setOnOff true w
  obtain ⟨hresult, hstate, -, htally⟩ := play_enable_sent hc hon
  obtain ⟨hr, hkept, hdone⟩ := play_awaitPower_unreadable (c := c.moveTo .enabling) hj (hlevels ▸ hlow) (hlevels ▸ herror)
  refine ⟨hresult.trans hr, hstate.trans hkept, htally.trans ?_⟩
  rw [← tally_acts, hdone, tally_append, (tally_lows j).2]
  simp [Tally.append, tally, isReading, delay?, isTransfer, on]

/-- Switched on, and no reading within the budget is anything but low. -/
theorem play_enable_low {c : Controller} {w : Plant} (hc : c.phase ≠ .enabled)
    (hon : ((setOnOff true).play Plant.answer w).result = .ok ()) (hlow : ∀ i < pollLimit, w.levels i = .ok false) :
    let on := (setOnOff true).play Plant.answer w
    let off := (setOnOff false).play Plant.answer on.state
    let r := c.enable.play Plant.answer w
    r.state.registers = off.state.registers ∧
      acts r.history = on.history ++ (lows pollLimit ++ (off.history ++ [⟨.delay (settleTime * millisecond), ()⟩])) ∧
      tally r.history =
        ⟨pollLimit, List.replicate pollLimit millisecond ++ [settleTime * millisecond], on.history ++ off.history⟩ ∧
      r.result = match off.result with
        | .ok () => (.error (.timeout pollLimit), c.moveTo .disabled)
        | .error failure => (.error (.timeoutRailOn failure), c.moveTo .enabling) := by
  intro on off r
  obtain ⟨hlevels, -⟩ := registers_setOnOff true w
  obtain ⟨hresult, hstate, hacts, htally⟩ := play_enable_sent hc hon
  obtain ⟨hkept, hdone, hr⟩ := play_awaitPower_low (c := c) (hlevels ▸ hlow)
  refine ⟨(congrArg Plant.registers hstate).trans hkept, ?_, htally.trans ?_, hresult.trans hr⟩
  · rw [hacts, hdone]
  · rw [← tally_acts, hdone, tally_append, tally_append, (tally_lows pollLimit).2, (tally_setOnOff false _).2, tally_delay]
    simp only [Tally.append, Nat.add_zero, List.nil_append, List.append_nil]
    rfl

/-- Every exit of `enable` on a rail that is not enabled, for every chip, every pattern of failures and every script of the
power-good line. If the on/off bit cannot be set, that is the error, the registers are as they were, and the line was not
read and nothing waited for. Otherwise the bit is set, and the first reading that is not low decides, if it is among the
first 500: after `j` low readings and as many waits of a millisecond the rail is enabled, or the reading's error is
reported and the rail left enabling. If there is none, the line is read 500 times with a wait after each, then there is
one switch-off and one wait of 30 milliseconds, and the outcome is a timeout with the bit cleared, or with the bit still
set if the switch-off failed. In no case is there any other transfer or any other change of a register. -/
theorem enable_exits (c : Controller) (w : Plant) (hc : c.phase ≠ .enabled) :
    let on := (setOnOff true).play Plant.answer w
    let r := c.enable.play Plant.answer w
    (∀ failure, on.result = .error failure →
      r.result = (.error (.bus failure), { c with phase := .disabled, enabled := false, powerGoodSeen := false }) ∧
        tally r.history = ⟨0, [], on.history⟩ ∧ r.state.registers = w.registers) ∧
    (on.result = .ok () →
      (∀ j < 500, (∀ i < j, w.levels i = .ok false) →
        (w.levels j = .ok true →
          r.result = (.ok (), { c with phase := .enabled, enabled := true, powerGoodSeen := true }) ∧
            tally r.history = ⟨j + 1, List.replicate j millisecond, on.history⟩ ∧
            r.state.registers = w.withOnOff true ∧ r.state.isOn = true) ∧
        (∀ reason, w.levels j = .error reason →
          r.result = (.error (.pin reason), { c with phase := .enabling, enabled := true }) ∧
            tally r.history = ⟨j + 1, List.replicate j millisecond, on.history⟩ ∧
            r.state.registers = w.withOnOff true ∧ r.state.isOn = true)) ∧
      ((∀ i < 500, w.levels i = .ok false) →
        let off := (setOnOff false).play Plant.answer on.state
        acts r.history = on.history ++ (lows 500 ++ (off.history ++ [⟨.delay (30 * millisecond), ()⟩])) ∧
        tally r.history =
          ⟨500, List.replicate 500 millisecond ++ [30 * millisecond], on.history ++ off.history⟩ ∧
        (off.result = .ok () →
          r.result = (.error (.timeout 500), { c with phase := .disabled, enabled := false, powerGoodSeen := false }) ∧
            r.state.registers = w.withOnOff false ∧ r.state.isOn = false) ∧
        (∀ failure, off.result = .error failure →
          r.result = (.error (.timeoutRailOn failure), { c with phase := .enabling, enabled := true }) ∧
            r.state.registers = w.withOnOff true ∧ r.state.isOn = true))) := by
  intro on r
  refine ⟨fun failure hon => ?_, fun hon => ?_⟩
  · obtain ⟨hresult, hstate, hacts⟩ := play_enable_refused hc hon
    refine ⟨hresult, ?_, (congrArg Plant.registers hstate).trans (registers_of_setOnOff_error hon)⟩
    rw [← tally_acts, hacts]
    exact (tally_setOnOff true w).2
  have hset : on.state.registers = w.withOnOff true := registers_of_setOnOff_ok hon
  refine ⟨fun j hj hlow => ⟨fun hhigh => ?_, fun reason herror => ?_⟩, fun hlow => ?_⟩
  · obtain ⟨hresult, hstate, htally⟩ := play_enable_high hc hj hon hlow hhigh
    have hkept : r.state.registers = w.withOnOff true := (congrArg Plant.registers hstate).trans hset
    exact ⟨hresult, htally, hkept, isOn_of_registers hkept⟩
  · obtain ⟨hresult, hstate, htally⟩ := play_enable_unreadable hc hj hon hlow herror
    have hkept : r.state.registers = w.withOnOff true := (congrArg Plant.registers hstate).trans hset
    exact ⟨hresult, htally, hkept, isOn_of_registers hkept⟩
  · obtain ⟨hkept, hacts, htally, hresult⟩ := play_enable_low hc hon hlow
    refine ⟨hacts, htally, fun hoff => ?_, fun failure hoff => ?_⟩
    · rw [hoff] at hresult
      have hclear := hkept.trans (registers_of_setOnOff_ok hoff)
      exact ⟨hresult, hclear.trans (Plant.withOnOff_of_registers false hset), isOn_of_registers hclear⟩
    · rw [hoff] at hresult
      have hsame : r.state.registers = w.withOnOff true := hkept.trans ((registers_of_setOnOff_error hoff).trans hset)
      exact ⟨hresult, hsame, isOn_of_registers hsame⟩

/-- A plant whose line is high from the fourth reading on. -/
def Plant.rising : Plant :=
  ⟨⟨fun _ => 0x05, fun _ => .carriedOut⟩, fun i => .ok (decide (3 ≤ i))⟩

/-- A plant whose line stays low, and whose chip does not acknowledge its fourth transfer. -/
def Plant.stuck : Plant :=
  ⟨⟨fun _ => 0x05, fun i => if i = 3 then .fails (.adapter (.noAcknowledge .data)) else .carriedOut⟩, fun _ => .ok false⟩

/-- The rail comes up at the fourth reading; on the other plant the switch-off is what is not acknowledged. -/
theorem enable_exits_fourth :
    let c : Controller := {}
    let up := c.enable.play Plant.answer Plant.rising
    let stuck := c.enable.play Plant.answer Plant.stuck
    c.phase ≠ .enabled ∧
      up.result = (.ok (), ⟨.enabled, true, true, .none⟩) ∧
      tally up.history =
        ⟨4, [millisecond, millisecond, millisecond],
          [⟨.transfer (.exchange [0x00] 1), .ok [0x05]⟩, ⟨.transfer (.write [0x00, 0x85]), .ok ()⟩]⟩ ∧
      stuck.result = (.error (.timeoutRailOn (.adapter (.noAcknowledge .data))), ⟨.enabling, true, false, .none⟩) ∧
      stuck.state.isOn = true := by
  have hc : ({} : Controller).phase ≠ .enabled := by decide
  have hlow (i : Nat) (hi : i < 3) : Plant.rising.levels i = .ok false :=
    congrArg Except.ok (decide_eq_false (Nat.not_le.2 hi))
  obtain ⟨hread, -⟩ := (enable_exits {} Plant.rising hc).2 (by rfl)
  obtain ⟨hresult, htally, -⟩ := (hread 3 (by decide) hlow).1 rfl
  obtain ⟨-, hnever⟩ := (enable_exits {} Plant.stuck hc).2 (by rfl)
  obtain ⟨-, -, -, hfails⟩ := hnever fun _ _ => rfl
  obtain ⟨hstuck, -, hon⟩ := hfails _ (by rfl)
  exact ⟨hc, hresult, htally, hstuck, hon⟩

end PenRail.Rail
