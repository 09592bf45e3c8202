import PenRail.Proofs.Rail.Session
import PenRail.Proofs.Rail.SwitchOn

/-!
# What a switch does, act by act

The acts of a switch-on and of a switch-off, whatever the chip and the power-good line answer. `Attempt` lists the four ways
in which setting or clearing the on/off bit can go, `SwitchesOn` the six ways through a switch-on. Nothing is assumed about
the answers, so what follows from these lists holds on every bus and with every failure.
-/

namespace PenRail.Rail

open Program (ends_bind ends_done ends_ask ends_request)

/-- The mode register was asked for. -/
def modeRead (reply : Except Bus.Failure Bytes) : Exchange interface :=
  ⟨.transfer (.exchange [Register.operationMode] 1), reply⟩

/-- The mode register was to be written. -/
def modeWrite (mode : UInt8) (reply : Except Bus.Failure Unit) : Exchange interface :=
  ⟨.transfer (.write [Register.operationMode, mode]), reply⟩

/-- The ramp-down wait. -/
def rampDown : Exchange interface :=
  ⟨.delay (30 * millisecond), ()⟩

/-- How an attempt to set or clear the on/off bit can go: its transfers, and what it ends with. -/
inductive Attempt (on : Bool) : History interface → Except Bus.Failure Unit → Prop
  | unread (failure : Bus.Failure) : Attempt on [modeRead (.error failure)] (.error failure)
  /-- The read brought no byte. -/
  | empty : Attempt on [modeRead (.ok [])] (.error (.short 1 0))
  /-- The bit is as wanted, so nothing is written. -/
  | skipped {mode : UInt8} {rest : Bytes} (same : modeByte on mode = mode) :
      Attempt on [modeRead (.ok (mode :: rest))] (.ok ())
  | written {mode : UInt8} {rest : Bytes} (differs : modeByte on mode ≠ mode) (reply : Except Bus.Failure Unit) :
      Attempt on [modeRead (.ok (mode :: rest)), modeWrite (modeByte on mode) reply] reply

variable {on : Bool} {h : History interface}

theorem ends_setOnOff {r : Except Bus.Failure Unit} (he : (setOnOff on).Ends h r) : Attempt on h r := by
  unfold setOnOff onBus at he
  rw [Bus.RegisterChip.updateRegister_run, Bus.RegisterChip.readRegister_run, Program.ask_bind, Program.under_ask,
    Program.request_bind] at he
  obtain ⟨reply, later, rfl, hread⟩ := ends_ask.1 he
  rcases reply with failure | (_ | ⟨mode, rest⟩)
  · obtain ⟨rfl, rfl⟩ := ends_done.1 hread
    exact .unread failure
  · obtain ⟨rfl, rfl⟩ := ends_done.1 hread
    exact .empty
  · simp only [Program.done_bind, blend_onOff] at hread
    by_cases hsame : modeByte on mode = mode
    · rw [if_pos hsame] at hread
      obtain ⟨rfl, rfl⟩ := ends_done.1 hread
      exact .skipped hsame
    · rw [if_neg hsame, Bus.RegisterChip.writeRegister_run, Program.under_request] at hread
      obtain rfl := ends_request.1 hread
      exact .written hsame r

theorem Attempt.acts_eq {r : Except Bus.Failure Unit} (ha : Attempt on h r) : acts h = h := by
  cases ha <;> rfl

@[simp] theorem acts_nil : acts [] = [] := rfl

/-- What is said is no act. -/
@[simp] theorem acts_log_cons (entry : Log.Entry) (h : History interface) : acts (⟨.log entry, ()⟩ :: h) = acts h := rfl

/-- A switch-off is an attempt, and the ramp-down wait behind it. -/
theorem acts_switchOff {r : Except Bus.Failure Unit} (he : switchOff.Ends h r) :
    ∃ off, Attempt false off r ∧ acts h = off ++ [rampDown] := by
  obtain ⟨off, r₁, _, rfl, hoff, hrest⟩ := ends_bind.1 he
  obtain ⟨_, _, _, rfl, hwait, hdone⟩ := ends_bind.1 hrest
  obtain rfl := ends_request.1 hwait
  obtain ⟨rfl, rfl⟩ := ends_done.1 hdone
  have hattempt := ends_setOnOff hoff
  refine ⟨off, hattempt, ?_⟩
  rw [acts_append, hattempt.acts_eq]
  rfl

/-- Polling reads the line while it is low, with a wait after each reading, and ends with the first reading that is not low
or with the budget. -/
theorem acts_pollFrom {budget waits : Nat} {r : Polled} (he : (pollFrom waits budget).Ends h r) :
    (r = .ok none ∧ acts h = lows budget) ∨
      ∃ j < budget, (r = .ok (some (waits + j)) ∧ acts h = lows j ++ [sawHigh]) ∨
        ∃ reason, r = .error reason ∧ acts h = lows j ++ [⟨.powerGood, .error reason⟩] := by
  induction budget generalizing waits h with
  | zero =>
    obtain ⟨rfl, rfl⟩ := ends_done.1 he
    exact .inl ⟨rfl, rfl⟩
  | succ budget ih =>
    obtain ⟨_, level, later, rfl, hread, hrest⟩ := ends_bind.1 he
    obtain rfl := ends_request.1 hread
    rcases level with reason | (_ | _)
    · obtain ⟨_, _, _, rfl, hsay, hdone⟩ := ends_bind.1 hrest
      obtain rfl := ends_say.1 hsay
      obtain ⟨rfl, rfl⟩ := ends_done.1 hdone
      exact .inr ⟨0, Nat.succ_pos _, .inr ⟨reason, rfl, rfl⟩⟩
    · obtain ⟨_, _, looks, rfl, hwait, hpoll⟩ := ends_bind.1 hrest
      obtain rfl := ends_request.1 hwait
      have hfirst : acts ([⟨.powerGood, .ok false⟩] ++ ([⟨.delay millisecond, ()⟩] ++ looks)) =
          ⟨.powerGood, .ok false⟩ :: ⟨.delay millisecond, ()⟩ :: acts looks := rfl
      rw [hfirst]
      rcases ih hpoll with ⟨hr, hacts⟩ | ⟨j, hj, ⟨hr, hacts⟩ | ⟨reason, hr, hacts⟩⟩
      · exact .inl ⟨hr, by rw [hacts, lows]⟩
      · refine .inr ⟨j + 1, Nat.succ_lt_succ hj, .inl ⟨?_, by rw [hacts, lows, List.cons_append, List.cons_append]⟩⟩
        rw [hr, Nat.add_right_comm, Nat.add_assoc]
      · exact .inr ⟨j + 1, Nat.succ_lt_succ hj, .inr ⟨reason, hr, by rw [hacts, lows, List.cons_append, List.cons_append]⟩⟩
    · obtain ⟨rfl, rfl⟩ := ends_done.1 hrest
      exact .inr ⟨0, Nat.succ_pos _, .inl ⟨rfl, rfl⟩⟩

/-! ## A switch-on -/

/-- What a switch-on does, in order, and how it ends. -/
inductive SwitchesOn : History interface → Result Unit → Prop
  /-- The rail was enabled before. -/
  | already : SwitchesOn [] (.ok ())
  | refused {on : History interface} {failure : Bus.Failure} (sent : Attempt true on (.error failure)) :
      SwitchesOn on (.error (.bus failure))
  | good {on : History interface} {j : Nat} (sent : Attempt true on (.ok ())) (hj : j < 500) :
      SwitchesOn (on ++ (lows j ++ [sawHigh])) (.ok ())
  | unreadable {on : History interface} {j : Nat} (sent : Attempt true on (.ok ())) (hj : j < 500) (reason : String) :
      SwitchesOn (on ++ (lows j ++ [⟨.powerGood, .error reason⟩])) (.error (.pin reason))
  | timeout {on off : History interface} (sent : Attempt true on (.ok ())) (tried : Attempt false off (.ok ())) :
      SwitchesOn (on ++ (lows 500 ++ (off ++ [rampDown]))) (.error (.timeout 500))
  | timeoutRailOn {on off : History interface} {failure : Bus.Failure} (sent : Attempt true on (.ok ()))
      (tried : Attempt false off (.error failure)) :
      SwitchesOn (on ++ (lows 500 ++ (off ++ [rampDown]))) (.error (.timeoutRailOn failure))

theorem acts_giveUp {c : Controller} {o : Outcome Unit} (he : c.giveUp.Ends h o) :
    ∃ off outcome, Attempt false off outcome ∧ acts h = off ++ [rampDown] ∧
      o.1 = match outcome with
        | .ok () => .error (.timeout 500)
        | .error failure => .error (.timeoutRailOn failure) := by
  simp only [Controller.giveUp, ends_bind, ends_say, ends_enter] at he
  obtain ⟨_, _, _, rfl, rfl, _, _, _, rfl, ⟨rfl, rfl⟩, sent, outcome, _, rfl, hoff, hrest⟩ := he
  obtain ⟨off, hattempt, hacts⟩ := acts_switchOff hoff
  refine ⟨off, outcome, hattempt, ?_⟩
  cases outcome with
  | error failure =>
    simp only [ends_bind, ends_say, ends_enter, Program.pure_eq, ends_done] at hrest
    obtain ⟨_, _, _, rfl, rfl, _, _, _, rfl, ⟨rfl, rfl⟩, rfl, rfl⟩ := hrest
    simp [acts_append, hacts]
  | ok =>
    simp only [ends_bind, ends_enter, Program.pure_eq, ends_done] at hrest
    obtain ⟨_, _, _, rfl, ⟨rfl, rfl⟩, rfl, rfl⟩ := hrest
    simp [acts_append, hacts, pollLimit]

theorem acts_enable {c : Controller} {o : Outcome Unit} (he : c.enable.Ends h o) : SwitchesOn (acts h) o.1 := by
  unfold Controller.enable at he
  by_cases hp : c.phase = .enabled
  · rw [if_pos hp] at he
    obtain ⟨rfl, rfl⟩ := ends_done.1 he
    exact .already
  rw [if_neg hp] at he
  simp only [ends_bind, ends_enter] at he
  obtain ⟨_, _, _, rfl, ⟨rfl, rfl⟩, sent, outcome, _, rfl, hset, hrest⟩ := he
  have hsent := ends_setOnOff hset
  rw [acts_append, acts_append, Controller.acts_moves, hsent.acts_eq, List.nil_append]
  cases outcome with
  | error failure =>
    simp only [ends_bind, ends_enter, Program.pure_eq, ends_done] at hrest
    obtain ⟨_, _, _, rfl, ⟨rfl, rfl⟩, rfl, rfl⟩ := hrest
    simpa using SwitchesOn.refused hsent
  | ok =>
    simp only [Controller.awaitPower, ends_bind] at hrest
    obtain ⟨looks, polled, _, rfl, hpoll, hrest⟩ := hrest
    rw [acts_append]
    rcases acts_pollFrom hpoll with ⟨rfl, hlooks⟩ | ⟨j, hj, ⟨rfl, hlooks⟩ | ⟨reason, rfl, hlooks⟩⟩
    · obtain ⟨off, outcome, hattempt, hacts, ho⟩ := acts_giveUp hrest
      rw [hlooks, hacts, ho]
      cases outcome with
      | error failure => exact .timeoutRailOn hsent hattempt
      | ok => exact .timeout hsent hattempt
    · simp only [ends_bind, ends_say, ends_enter, Program.pure_eq, ends_done] at hrest
      obtain ⟨_, _, _, rfl, rfl, _, _, _, rfl, ⟨rfl, rfl⟩, rfl, rfl⟩ := hrest
      simpa [acts_append, hlooks] using SwitchesOn.good hsent hj
    · obtain ⟨rfl, rfl⟩ := ends_done.1 hrest
      simpa [hlooks] using SwitchesOn.unreadable hsent hj reason

/-! ## A switch-off -/

theorem acts_disable {c : Controller} {o : Outcome Unit} (he : c.disable.Ends h o) :
    ∃ off outcome, Attempt false off outcome ∧ acts h = off ++ [rampDown] ∧ o.1 = outcome.mapError .bus := by
  simp only [Controller.disable, ends_bind, ends_enter] at he
  obtain ⟨_, _, _, rfl, ⟨rfl, rfl⟩, sent, outcome, _, rfl, hoff, hrest⟩ := he
  obtain ⟨off, hattempt, hacts⟩ := acts_switchOff hoff
  refine ⟨off, outcome, hattempt, ?_⟩
  cases outcome with
  | error failure =>
    simp only [ends_bind, ends_enter, Program.pure_eq, ends_done] at hrest
    obtain ⟨_, _, _, rfl, ⟨rfl, rfl⟩, rfl, rfl⟩ := hrest
    exact ⟨by simp [acts_append, hacts], rfl⟩
  | ok =>
    simp only [ends_bind, ends_enter, Program.pure_eq, ends_done] at hrest
    obtain ⟨_, _, _, rfl, ⟨rfl, rfl⟩, rfl, rfl⟩ := hrest
    exact ⟨by simp [acts_append, hacts], rfl⟩

end PenRail.Rail
