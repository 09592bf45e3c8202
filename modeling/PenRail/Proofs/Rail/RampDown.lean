import PenRail.Proofs.Places
import PenRail.Proofs.Rail.Switches

/-!
# The ramp-down wait

A rail that is switched on before it has discharged can latch a fault. So behind every attempt to switch off, however it
went, nothing reaches the chip or the line before the ramp-down wait is over. It is enough to look at the acts of single
calls: the wait is the last act of each call that tries to switch off, and no other call clears the on/off bit.
-/

namespace PenRail.Rail

/-- What was done in the calls, in order: the transfers, the readings of the line and the delays. -/
def trace (calls : List Call) : History interface :=
  calls.flatMap fun k => acts k.history

theorem trace_append (calls later : List Call) : trace (calls ++ later) = trace calls ++ trace later :=
  List.flatMap_append

theorem trace_cons (k : Call) (calls : List Call) : trace (k :: calls) = acts k.history ++ trace calls :=
  List.flatMap_cons

/-- The delays that were asked for in all, in nanoseconds. -/
def waited : History interface → Nat
  | [] => 0
  | x :: h => (delay? x).getD 0 + waited h

/-- Power good did not come, so that switching off again was tried. -/
def GaveUp {α : Type} (r : Result α) : Prop :=
  r = .error (.timeout 500) ∨ ∃ failure, r = .error (.timeoutRailOn failure)

theorem gaveUp_map {α β : Type} {f : α → β} {r : Result α} : GaveUp (r.map f) ↔ GaveUp r := by
  simp only [GaveUp, map_eq_error]

/-- A write that clears the on/off bit, whatever becomes of it. -/
def Clears (x : Exchange interface) : Prop :=
  ∃ mode reply, x = modeWrite mode reply ∧ mode &&& Register.onOff = 0

/-- Behind each write that clears the on/off bit comes the ramp-down wait. -/
def Ramped (h : History interface) : Prop :=
  Throughout (fun _ x later => Clears x → ∃ rest, later = rampDown :: rest) h

theorem Ramped.append {h₁ h₂ : History interface} (ramped₁ : Ramped h₁) (ramped₂ : Ramped h₂) : Ramped (h₁ ++ h₂) := by
  refine throughout_append.2 ⟨ramped₁.mono fun _ x later hx hclears => ?_, ramped₂⟩
  obtain ⟨rest, rfl⟩ := hx hclears
  exact ⟨rest ++ h₂, rfl⟩

theorem ramped_of_not_clears {h : History interface} (hnot : ∀ x ∈ h, ¬Clears x) : Ramped h := by
  rintro earlier x later rfl hclears
  exact absurd hclears (hnot x (by simp))

/-! ## Which acts clear the bit -/

theorem modeWrite_inj {mode mode' : UInt8} {reply reply' : Except Bus.Failure Unit}
    (h : modeWrite mode reply = modeWrite mode' reply') : mode = mode' := by
  simpa [modeWrite] using congrArg Exchange.request h

theorem not_clears_of_request {x : Exchange interface}
    (h : ∀ mode, x.request ≠ .transfer (.write [Register.operationMode, mode])) : ¬Clears x := by
  rintro ⟨mode, reply, rfl, -⟩
  exact h mode rfl

theorem not_clears_modeRead (reply : Except Bus.Failure Bytes) : ¬Clears (modeRead reply) :=
  not_clears_of_request (by simp [modeRead])

theorem not_clears_reading (level : Except String Bool) : ¬Clears ⟨.powerGood, level⟩ :=
  not_clears_of_request (by simp)

theorem not_clears_delay (nanoseconds : Nat) : ¬Clears ⟨.delay nanoseconds, ()⟩ :=
  not_clears_of_request (by simp)

theorem not_clears_lows (n : Nat) : ∀ x ∈ lows n, ¬Clears x := by
  intro x hx
  rcases mem_lows hx with rfl | rfl
  · exact not_clears_reading _
  · exact not_clears_delay _

/-- Switching on writes the mode with the bit set. -/
theorem Attempt.not_clears {on : History interface} {r : Except Bus.Failure Unit} (ha : Attempt true on r) :
    ∀ x ∈ on, ¬Clears x := by
  have hwrite (mode : UInt8) (reply : Except Bus.Failure Unit) : ¬Clears (modeWrite (modeByte true mode) reply) := by
    rintro ⟨mode', reply', heq, hclear⟩
    rw [← modeWrite_inj heq, modeByte_and_onOff] at hclear
    cases hclear
  cases ha <;> simp [not_clears_modeRead, hwrite]

theorem Attempt.ramped {off : History interface} {r : Except Bus.Failure Unit} (ha : Attempt false off r) :
    Ramped (off ++ [rampDown]) := by
  have hwait : ¬Clears rampDown := not_clears_delay _
  cases ha <;> simp [Ramped, not_clears_modeRead, hwait]

/-! ## One call -/

theorem SwitchesOn.gaveUp {h : History interface} {r : Result Unit} (hon : SwitchesOn h r) (hr : GaveUp r) :
    ∃ on off outcome, Attempt true on (.ok ()) ∧ Attempt false off outcome ∧ h = on ++ (lows 500 ++ (off ++ [rampDown])) := by
  cases hon with
  | timeout sent tried => exact ⟨_, _, _, sent, tried, rfl⟩
  | timeoutRailOn sent tried => exact ⟨_, _, _, sent, tried, rfl⟩
  | already | refused | good | unreadable =>
    rcases hr with hr | ⟨failure, hr⟩
    all_goals cases hr

/-- A switch-on that does not give up does not clear the bit. -/
theorem SwitchesOn.not_clears {h : History interface} {r : Result Unit} (hon : SwitchesOn h r) (hr : ¬GaveUp r) :
    ∀ x ∈ h, ¬Clears x := by
  have hlooks {on : History interface} (sent : Attempt true on (.ok ())) (j : Nat) (level : Except String Bool) :
      ∀ x ∈ on ++ (lows j ++ [⟨.powerGood, level⟩]), ¬Clears x := by
    intro x hx
    rcases List.mem_append.1 hx with hx | hx
    · exact sent.not_clears x hx
    rcases List.mem_append.1 hx with hx | hx
    · exact not_clears_lows j x hx
    · obtain rfl := List.mem_singleton.1 hx
      exact not_clears_reading level
  cases hon with
  | already => simp
  | refused sent => exact sent.not_clears
  | good sent => exact hlooks sent _ _
  | unreadable sent _ reason => exact hlooks sent _ _
  | timeout => exact absurd (.inl rfl) hr
  | timeoutRailOn => exact absurd (.inr ⟨_, rfl⟩) hr

/-- An operation that does not switch the rail writes other registers, if any. -/
theorem Call.Possible.not_clears {k : Call} (hk : k.Possible) (hm : k.operation.switches = false) :
    ∀ x ∈ k.history, ¬Clears x := by
  intro x hx
  refine not_clears_of_request fun mode hwrite => ?_
  have hstores := (only_call_footprint k.before k.operation).ends hk x hx _ hwrite
  rw [hwrite] at hstores
  obtain ⟨register, hin, value, hbytes⟩ := hstores
  rw [← (List.cons.inj hbytes).1] at hin
  exact Method.operationMode_not_mem_footprint hm hin

/-- A switch-off, or a switch-on that gave up: the attempt to switch off is the last that is done before the ramp-down wait,
and the wait is the last of all. Any other call does not clear the bit. -/
theorem Call.Possible.cases_switchOff {k : Call} (hk : k.Possible) :
    (k.operation = .disable ∧ ∃ off outcome, Attempt false off outcome ∧ acts k.history = off ++ [rampDown] ∧
        k.result = (outcome.mapError .bus).map fun _ => .unit) ∨
      (k.operation = .enable ∧ GaveUp k.result ∧ ∃ on off outcome, Attempt true on (.ok ()) ∧ Attempt false off outcome ∧
        acts k.history = on ++ (lows 500 ++ (off ++ [rampDown]))) ∨
      (k.operation ≠ .disable ∧ ¬(k.operation = .enable ∧ GaveUp k.result) ∧ ∀ x ∈ acts k.history, ¬Clears x) := by
  rcases hk.cases with ⟨hm, -, -⟩ | ⟨hm, r, ho, hr⟩ | ⟨hm, r, ho, hr⟩
  · refine .inr (.inr ⟨?_, ?_, fun x hx => hk.not_clears hm x (List.mem_filter.1 hx).1⟩)
    · intro he
      rw [he] at hm
      cases hm
    · rintro ⟨he, -⟩
      rw [he] at hm
      cases hm
  · have hon : SwitchesOn (acts k.history) r := acts_enable ho
    rw [hr, gaveUp_map, hm]
    by_cases hgave : GaveUp r
    · exact .inr (.inl ⟨rfl, hgave, hon.gaveUp hgave⟩)
    · exact .inr (.inr ⟨by decide, fun h => hgave h.2, hon.not_clears hgave⟩)
  · obtain ⟨off, outcome, hattempt, hacts, rfl⟩ := acts_disable ho
    exact .inl ⟨hm, off, outcome, hattempt, hacts, hr⟩

theorem Call.Possible.ramped {k : Call} (hk : k.Possible) : Ramped (acts k.history) := by
  rcases hk.cases_switchOff with ⟨-, off, outcome, ha, hacts, -⟩ | ⟨-, -, on, off, outcome, hon, ha, hacts⟩ | ⟨-, -, hnot⟩
  · rw [hacts]
    exact ha.ramped
  · rw [hacts]
    exact (ramped_of_not_clears hon.not_clears).append ((ramped_of_not_clears (not_clears_lows 500)).append ha.ramped)
  · exact ramped_of_not_clears hnot

/-! ## A session -/

theorem ramped_trace {calls : List Call} (hcalls : ∀ k ∈ calls, k.Possible) : Ramped (trace calls) := by
  induction calls with
  | nil => exact ramped_of_not_clears (by simp [trace])
  | cons k calls ih =>
    rw [trace_cons]
    exact (hcalls k List.mem_cons_self).ramped.append (ih fun j hj => hcalls j (List.mem_cons_of_mem k hj))

/-- The ramp-down wait cannot be skipped. In a session with any answers at all: a switch-off, and a switch-on that saw no
power good, try to clear the on/off bit, and however that went the next act of the session is a delay of 30 milliseconds. No
other call clears the bit. So between a write that clears it and a later one that sets it, no less than 30 milliseconds of
delay are asked for. -/
theorem rampDown_after_every_switchOff {σ : Type} (answer : Answerer interface σ) (methods : List Method) (start : σ) :
    let s : Session σ := Course.run Controller.call answer methods {} start
    (∀ earlier k later, s.calls = earlier ++ k :: later →
      (k.operation = .disable → ∃ off outcome, Attempt false off outcome ∧
        k.result = (outcome.mapError .bus).map (fun _ => .unit) ∧
          trace s.calls = trace earlier ++ (off ++ rampDown :: trace later)) ∧
      (k.operation = .enable → GaveUp k.result → ∃ on off outcome, Attempt true on (.ok ()) ∧ Attempt false off outcome ∧
        trace s.calls = trace earlier ++ (on ++ (lows 500 ++ (off ++ rampDown :: trace later)))) ∧
      (k.operation ≠ .disable → ¬(k.operation = .enable ∧ GaveUp k.result) → ∀ x ∈ acts k.history, ¬Clears x)) ∧
    ∀ earlier cleared reply between set reply' later,
      trace s.calls = earlier ++ modeWrite cleared reply :: (between ++ modeWrite set reply' :: later) →
        cleared &&& Register.onOff = 0 → set &&& Register.onOff ≠ 0 →
          30 * millisecond ≤ waited between := by
  intro s
  have hs : ∀ k ∈ s.calls, Call.Possible k := Session.possible_run answer methods start
  refine ⟨fun earlier k later hcalls => ?_, fun earlier cleared reply between set reply' later htrace hclear hset => ?_⟩
  · have htrace : trace s.calls = trace earlier ++ (acts k.history ++ trace later) := by
      rw [hcalls, trace_append, trace_cons]
    rw [htrace]
    rcases (hs k (by simp [hcalls])).cases_switchOff with
      ⟨hm, off, outcome, ha, hacts, hr⟩ | ⟨hm, hgave, on, off, outcome, hon, ha, hacts⟩ | ⟨hm, hgave, hnot⟩
    · rw [hm, hacts]
      exact ⟨fun _ => ⟨off, outcome, ha, hr, by simp⟩, nofun, fun hne => absurd rfl hne⟩
    · rw [hm, hacts]
      exact ⟨nofun, fun _ _ => ⟨on, off, outcome, hon, ha, by simp⟩, fun _ hne => absurd ⟨rfl, hgave⟩ hne⟩
    · exact ⟨fun he => absurd he hm, fun he hg => absurd ⟨he, hg⟩ hgave, fun _ _ => hnot⟩
  · obtain ⟨rest, hrest⟩ := ramped_trace hs earlier _ _ htrace ⟨cleared, reply, rfl, hclear⟩
    -- The wait is right behind the write that clears, so a write that sets can only come after it.
    cases between with
    | nil => cases congrArg Exchange.request (List.cons.inj hrest).1
    | cons x between =>
      obtain ⟨rfl, -⟩ := List.cons.inj hrest
      exact Nat.le_add_right _ _

/-- A plant whose line is high, and whose chip does not acknowledge its fourth transfer. -/
def Plant.stubborn : Plant :=
  ⟨⟨fun _ => 0x05, fun i => if i = 3 then .fails (.adapter (.noAcknowledge .data)) else .carriedOut⟩, fun _ => .ok true⟩

/-- There the first switch-off fails at its write and the second goes through: both wait 30 milliseconds, in nanoseconds, and the
rail is not switched on again before. -/
theorem rampDown_after_every_switchOff_stubborn :
    let s : Session Plant := Course.run Controller.call Plant.answer [.enable, .disable, .disable, .enable] {} Plant.stubborn
    let refused : Except Bus.Failure Unit := .error (.adapter (.noAcknowledge .data))
    let up : History interface := [modeRead (.ok [0x05]), modeWrite 0x85 (.ok ()), sawHigh]
    let failed : History interface := [modeRead (.ok [0x85]), modeWrite 0x05 refused, rampDown, modeRead (.ok [0x85])]
    trace s.calls = (up ++ failed) ++ modeWrite 0x05 (.ok ()) :: ([rampDown, modeRead (.ok [0x05])] ++
        modeWrite 0x85 (.ok ()) :: [sawHigh]) ∧
      30000000 ≤ waited [rampDown, modeRead (.ok [0x05])] ∧ rampDown = ⟨.delay 30000000, ()⟩ := by
  intro s refused up failed
  have htrace : trace s.calls = (up ++ failed) ++ modeWrite 0x05 (.ok ()) :: ([rampDown, modeRead (.ok [0x05])] ++
      modeWrite 0x85 (.ok ()) :: [sawHigh]) := by rfl
  obtain ⟨-, hwait⟩ := rampDown_after_every_switchOff Plant.answer [.enable, .disable, .disable, .enable] Plant.stubborn
  exact ⟨htrace, hwait _ _ _ _ _ _ _ htrace (by decide) (by decide), rfl⟩

end PenRail.Rail
