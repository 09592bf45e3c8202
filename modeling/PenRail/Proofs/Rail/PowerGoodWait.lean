import PenRail.Proofs.Rail.Recovery
import PenRail.Proofs.Rail.Switches

/-!
# Waiting for power good

What makes no transfer meets the power-good line and nothing else of a plant, so on the same line it goes the same way over
every chip (`play_offBus`). A wait for power good is a poll and no more; a switch-on is a poll with a transfer before it, and
with the switch-off behind it if power good did not come. So the two end alike.
-/

namespace PenRail.Rail

open Bus (RegisterChip)

/-! ## Polling -/

/-- The line alone decides how a program goes that makes no transfer: the chip may be any, and is left as it is. -/
theorem play_offBus {α : Type} {p : Program interface α} (hp : p.Only Request.OffBus) (w : Plant) (chip : RegisterChip) :
    let r := p.play Plant.answer w
    p.play Plant.answer { w with chip } = ⟨r.result, { r.state with chip }, r.history⟩ := by
  induction p generalizing w with
  | done a => rfl
  | ask q next ih =>
    cases q with
    | transfer t => exact hp.1.elim
    | powerGood => exact congrArg (Played.behind · _) (ih _ (hp.2 _) w.looked)
    | delay | log => exact congrArg (Played.behind · _) (ih _ (hp.2 _) w)

/-- On the same line polling goes the same way. -/
theorem play_poll_of_levels {u w : Plant} (h : u.levels = w.levels) :
    let r := poll.play Plant.answer w
    poll.play Plant.answer u = ⟨r.result, { r.state with chip := u.chip }, r.history⟩ := by
  have hu : u = { w with chip := u.chip } := by rw [← h]
  exact (congrArg (poll.play Plant.answer) hu).trans (play_offBus (offBus_pollFrom 0 pollLimit) w u.chip)

/-- Polling reads the line and waits, a millisecond at a time, and does nothing else. -/
theorem tally_poll (w : Plant) :
    ∃ reads n, tally (poll.play Plant.answer w).history = ⟨reads, List.replicate n millisecond, []⟩ := by
  rw [← tally_acts]
  rcases acts_pollFrom (Program.ends_play Plant.answer poll w) with ⟨-, hacts⟩ | ⟨j, -, ⟨-, hacts⟩ | ⟨reason, -, hacts⟩⟩
  · rw [hacts]
    exact ⟨_, _, (tally_lows _).2⟩
  · rw [hacts, tally_append, (tally_lows j).2]
    exact ⟨j + 1, j, by simp [Tally.append, tally, sawHigh, isReading, delay?, isTransfer]⟩
  · rw [hacts, tally_append, (tally_lows j).2]
    exact ⟨j + 1, j, by simp [Tally.append, tally, isReading, delay?, isTransfer]⟩

/-! ## The two that poll -/

/-- What a wait for power good makes of a poll. -/
def answerOf : Polled → Result Answer
  | .error reason => .error (.pin reason)
  | .ok seen => .ok (.bool seen.isSome)

/-- A wait for power good is a poll. -/
theorem play_waitPowerGood (view : Controller) (w : Plant) :
    let polled := poll.play Plant.answer w
    (view.call .waitPowerGood).play Plant.answer w = ⟨(answerOf polled.result, view), polled.state, polled.history⟩ := by
  simp only [Controller.call, Controller.keep, waitPowerGood, Program.play_bind]
  generalize poll.play Plant.answer w = polled
  obtain ⟨polled, later, looks⟩ := polled
  cases polled with
  | error | ok => simp only [Program.pure_eq, Program.play_done, Played.behind, List.append_nil, answerOf, Except.map]

/-- How a wait for power good and a switch-on end that polled alike, and what the switch-on waits for besides. -/
inductive EndAlike : Result Answer → Result Unit → List Nat → Prop
  | seen : EndAlike (.ok (.bool true)) (.ok ()) []
  | unseen : EndAlike (.ok (.bool false)) (.error (.timeout 500)) [30 * millisecond]
  | unreadable (reason : String) : EndAlike (.error (.pin reason)) (.error (.pin reason)) []

/-- Once it was switched on, on a bus that works: a poll decides how it ends, and only giving up does anything more. -/
theorem play_awaitPower_of_works (c : Controller) {u : Plant} (hu : u.Works) :
    let polled := poll.play Plant.answer u
    let r := c.awaitPower.play Plant.answer u
    ∃ extra off, EndAlike (answerOf polled.result) r.result.1 extra ∧
      tally r.history = (tally polled.history).append ⟨0, extra, off⟩ := by
  intro polled r
  have hworks : polled.state.Works := hu.play poll
  simp only [r, Controller.awaitPower, Program.play_bind, Played.behind_result, Played.behind_history]
  change ∃ extra off, EndAlike (answerOf polled.result) _ extra ∧ tally (polled.history ++ _) = _
  rw [← tally_acts, acts_append]
  rcases hpolled : polled.result with reason | (_ | waits)
  · refine ⟨[], [], .unreadable reason, ?_⟩
    rw [tally_append, tally_acts]
    rfl
  · have hoff := setOnOff_of_works hworks false
    obtain ⟨-, hacts, hresult⟩ := play_giveUp c polled.state
    rw [hoff] at hresult
    refine ⟨[30 * millisecond], ((setOnOff false).play Plant.answer polled.state).history, ?_, ?_⟩
    · rw [show (c.giveUp.play Plant.answer polled.state).result = _ from hresult]
      exact .unseen
    · rw [show acts (c.giveUp.play Plant.answer polled.state).history = _ from hacts, tally_append, tally_append, tally_acts,
        (tally_setOnOff false polled.state).2, tally_delay]
      simp only [Tally.append, Nat.add_zero, List.nil_append, List.append_nil]
      rfl
  · refine ⟨[], [], ?_, ?_⟩
    · simp only [Program.play_bind, play_say, play_enter, Program.pure_eq, Program.play_done, Played.behind_result]
      exact .seen
    · simp only [Program.play_bind, play_say, play_enter, Program.pure_eq, Program.play_done, Played.behind_history,
        acts_append, Controller.acts_moves, tally_append, tally_acts]
      rfl

namespace EndAlike

variable {answer : Result Answer} {result : Result Unit} {extra : List Nat}

theorem ok_iff (h : EndAlike answer result extra) : answer = .ok (.bool true) ↔ result = .ok () := by
  cases h <;> simp

theorem timeout_iff (h : EndAlike answer result extra) :
    answer = .ok (.bool false) ↔ ∃ waits, result = .error (.timeout waits) := by
  cases h <;> simp

theorem pin_iff (h : EndAlike answer result extra) (reason : String) :
    answer = .error (.pin reason) ↔ result = .error (.pin reason) := by
  cases h <;> simp

end EndAlike

/-- Waiting for power good agrees with switching on. The wait, from any view and over any bus, makes no transfer and leaves
view and chip as they were. A switch-on of a disabled rail, on the same line and a bus that works, succeeds exactly if the
wait sees power good, times out exactly if the wait does not see it, and fails on the line exactly if the wait does, for the
same reason. It reads the line as often and waits as many times a millisecond, and then 30 milliseconds more exactly if it
timed out. -/
theorem waitPowerGood_agrees_with_enable (view c : Controller) (w w' : Plant) (hc : c.phase = .disabled)
    (hworks : w'.Works) (hline : w'.levels = w.levels) :
    let wait := (view.call .waitPowerGood).play Plant.answer w
    let on := c.enable.play Plant.answer w'
    (wait.result.2 = view ∧ wait.state.chip = w.chip ∧ (tally wait.history).transfers = []) ∧
      (wait.result.1 = .ok (.bool true) ↔ on.result.1 = .ok ()) ∧
      (wait.result.1 = .ok (.bool false) ↔ ∃ waits, on.result.1 = .error (.timeout waits)) ∧
      (∀ reason, wait.result.1 = .error (.pin reason) ↔ on.result.1 = .error (.pin reason)) ∧
      ∃ n extra, EndAlike wait.result.1 on.result.1 extra ∧ (tally on.history).reads = (tally wait.history).reads ∧
        (tally wait.history).delays = List.replicate n millisecond ∧
        (tally on.history).delays = List.replicate n millisecond ++ extra := by
  intro wait on
  let polled := poll.play Plant.answer w
  let sent := ((setOnOff true).play Plant.answer w').state
  have hwait : wait = ⟨(answerOf polled.result, view), polled.state, polled.history⟩ := play_waitPowerGood view w
  obtain ⟨reads, n, htally⟩ : ∃ reads n, tally polled.history = ⟨reads, List.replicate n millisecond, []⟩ := tally_poll w
  -- The switch-on polls the same line, over the chip as its first transfers left it.
  have hsame : poll.play Plant.answer sent = ⟨polled.result, { polled.state with chip := sent.chip }, polled.history⟩ :=
    play_poll_of_levels ((registers_setOnOff true w').1.trans hline)
  obtain ⟨hresult, -, -, hsent⟩ := play_enable_sent (c := c) (by rw [hc]; decide) (setOnOff_of_works hworks true)
  obtain ⟨extra, off, halike, hawait⟩ := play_awaitPower_of_works (c.moveTo .enabling) (hworks.play (setOnOff true))
  change EndAlike (answerOf (poll.play Plant.answer sent).result) _ extra at halike
  change _ = (tally (poll.play Plant.answer sent).history).append _ at hawait
  rw [hsame] at halike hawait
  have hend : EndAlike wait.result.1 on.result.1 extra := by
    rw [hwait, show on.result = _ from hresult]
    exact halike
  have hchip : polled.state.chip = w.chip := congrArg (fun r => r.state.chip) (play_poll_of_levels (u := w) rfl)
  refine ⟨?_, hend.ok_iff, hend.timeout_iff, hend.pin_iff, n, extra, hend, ?_, ?_, ?_⟩
  · rw [hwait]
    exact ⟨rfl, hchip, congrArg Tally.transfers htally⟩
  · rw [show tally on.history = _ from hsent, hawait, hwait]
    rfl
  · rw [hwait]
    exact congrArg Tally.delays htally
  · rw [show tally on.history = _ from hsent, hawait, htally]
    rfl

/-- The line of the rising plant, over a chip that acknowledges nothing. -/
def Plant.mute : Plant :=
  { Plant.rising with chip := ⟨fun _ => 0x00, fun _ => .fails (.adapter (.noAcknowledge .address))⟩ }

/-- There a wait during a switch-off sees power good at the fourth reading, and so does a switch-on over the chip that
works. -/
theorem waitPowerGood_agrees_with_enable_rising :
    let view : Controller := { phase := .disabling }
    let wait := (view.call .waitPowerGood).play Plant.answer Plant.mute
    let on := ({} : Controller).enable.play Plant.answer Plant.rising
    ({} : Controller).phase = .disabled ∧ Plant.rising.Works ∧ Plant.rising.levels = Plant.mute.levels ∧
      wait.result = (.ok (.bool true), view) ∧ on.result.1 = .ok () ∧ (tally wait.history).reads = 4 ∧
      (tally on.history).reads = 4 := by
  intro view wait on
  have hworks : Plant.rising.Works := fun _ => rfl
  obtain ⟨⟨hview, -⟩, hok, -, -, _, _, -, hreads, -⟩ :=
    waitPowerGood_agrees_with_enable view {} Plant.mute Plant.rising rfl hworks rfl
  have hseen : wait.result.1 = .ok (.bool true) := by rfl
  have hfour : (tally wait.history).reads = 4 := by rfl
  exact ⟨rfl, hworks, rfl, Prod.ext hseen hview, hok.1 hseen, hfour, hreads.trans hfour⟩

end PenRail.Rail
