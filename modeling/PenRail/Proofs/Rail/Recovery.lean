import PenRail.Proofs.Rail.OnOffBit

/-!
# Coming back from faults

However operations failed before, a switch works as soon as the bus does. The cached view may be wrong by then: after a
switch-on that forgot the bit it says the rail is off. But it is never wrong in the one way that would matter, since a
switch-on does nothing only for an enabled rail: an enabled rail has its bit set.
-/

namespace PenRail.Rail

open Bus (RegisterChip)

/-- From now on every transfer is carried out. -/
def Plant.Works (w : Plant) : Prop :=
  ∀ i, w.chip.fates i = .carriedOut

theorem Plant.works_answer {w : Plant} (h : w.Works) (q : Request) : (Plant.answer q w).2.Works := by
  cases q with
  | powerGood | delay | log => exact h
  | transfer t =>
    intro i
    rw [← h (i + 1)]
    exact congrFun (RegisterChip.answer_fates t w.chip) i

/-- A bus that works goes on working. -/
theorem Plant.Works.play {α : Type} {w : Plant} (h : w.Works) (p : Program interface α) :
    (p.play Plant.answer w).state.Works := by
  induction p generalizing w with
  | done a => exact h
  | ask q next ih => exact ih _ (Plant.works_answer h q)

/-- The line reads high within its next 500 readings, and none fails before that. -/
def Plant.Rises (w : Plant) : Prop :=
  ∃ j < 500, w.levels j = .ok true ∧ ∀ i < j, ∀ reason, w.levels i ≠ .error reason

/-- The first high reading comes after low ones only. -/
theorem Plant.Rises.first {w : Plant} (h : w.Rises) :
    ∃ j < 500, w.levels j = .ok true ∧ ∀ i < j, w.levels i = .ok false := by
  obtain ⟨n, hn, hhigh, hreadable⟩ := h
  induction n using Nat.strongRecOn with
  | _ n ih =>
    by_cases hearlier : ∃ i < n, w.levels i = .ok true
    · obtain ⟨i, hi, hhigh⟩ := hearlier
      exact ih i hi (by omega) hhigh fun k hk => hreadable k (by omega)
    · refine ⟨n, hn, hhigh, fun i hi => ?_⟩
      cases hlevel : w.levels i with
      | error reason => exact absurd hlevel (hreadable i hi reason)
      | ok level =>
        cases level with
        | false => rfl
        | true => exact absurd ⟨i, hi, hlevel⟩ hearlier

/-- What a session keeps: the flags agree with the phase, and an enabled rail has its bit set. -/
structure Powered (s : Session Plant) : Prop where
  coherent : s.view.Coherent
  isOn : s.view.phase = .enabled → s.state.isOn = true

namespace Powered

variable {s : Session Plant}

theorem next_enable (hs : Powered s) : Powered (s.next Controller.call Plant.answer .enable) := by
  have hcoherent : (s.next Controller.call Plant.answer .enable).view.Coherent :=
    ((Session.possible_made Plant.answer s .enable).coherent hs.coherent).1
  refine ⟨hcoherent, fun hp => ?_⟩
  obtain ⟨-, hview, hstate⟩ := Session.made_change Plant.answer s (m := .enable) rfl
  have henabled : (s.next Controller.call Plant.answer .enable).view.enabled = true := by
    rw [hcoherent.enabled, hp]
    rfl
  rcases isOn_enable s.view s.state with ⟨hbefore, -, hbit⟩ | ⟨-, ⟨failure, hr⟩, -⟩ | ⟨-, -, hagree⟩
  · rw [hstate, hbit, hs.isOn hbefore]
  · rw [hview, hr] at henabled
    cases henabled
  · rw [hstate, ← hagree, ← hview, henabled]

theorem next_disable (hs : Powered s) : Powered (s.next Controller.call Plant.answer .disable) := by
  refine ⟨((Session.possible_made Plant.answer s .disable).coherent hs.coherent).1, fun hp => ?_⟩
  obtain ⟨-, hview, hstate⟩ := Session.made_change Plant.answer s (m := .disable) rfl
  rw [hview] at hp
  rw [hstate]
  rcases isOn_disable s.view s.state with ⟨hr, -⟩ | ⟨failure, hr, hbit⟩
  · rw [hr] at hp
    cases hp
  · rw [hr] at hp
    rw [hbit, hs.isOn hp]

theorem next (hs : Powered s) (m : Method) : Powered (s.next Controller.call Plant.answer m) := by
  cases hm : m.switches with
  | false =>
    refine ⟨((Session.possible_made Plant.answer s m).coherent hs.coherent).1, fun hp => ?_⟩
    obtain ⟨fault, hview⟩ := ends_call_view hm (s.ends_made Controller.call Plant.answer m)
    have hphase : (s.next Controller.call Plant.answer m).view.phase = s.view.phase :=
      (congrArg Controller.phase hview).trans rfl
    have hkept : (s.next Controller.call Plant.answer m).state.isOn = s.state.isOn :=
      isOn_of_spares (only_call_footprint s.view m) (Method.operationMode_not_mem_footprint hm) s.state
    rw [hkept, hs.isOn (hphase ▸ hp)]
  | true =>
    rcases Method.eq_of_switches hm with rfl | rfl
    · exact hs.next_enable
    · exact hs.next_disable

theorem run (methods : List Method) (w : Plant) : Powered (Course.run Controller.call Plant.answer methods {} w) :=
  Course.always Controller.call Plant.answer Powered ⟨.fresh, nofun⟩ fun _ m _ hs => hs.next m

end Powered

/-- On a bus that works a switch-off succeeds, from any view. -/
theorem play_disable_of_works (c : Controller) {w : Plant} (hw : w.Works) :
    let r := c.disable.play Plant.answer w
    r.result = (.ok (), c.moveTo .disabled) ∧ r.state.isOn = false := by
  rcases registers_disable c w with ⟨-, hresult, hset⟩ | ⟨failure, hoff, -⟩
  · exact ⟨hresult, isOn_of_registers hset⟩
  · cases (setOnOff_of_works hw false).symm.trans hoff

/-- On a bus that works a switch-on succeeds if the line rises, from any view: a rail that is enabled is left alone. -/
theorem play_enable_of_works (c : Controller) {w : Plant} (hw : w.Works) (hrises : w.Rises) :
    let r := c.enable.play Plant.answer w
    r.result.1 = .ok () ∧ r.result.2.phase = .enabled := by
  intro r
  by_cases hc : c.phase = .enabled
  · simp only [r, Controller.enable, if_pos hc]
    exact ⟨rfl, hc⟩
  · obtain ⟨j, hj, hhigh, hlow⟩ := hrises.first
    obtain ⟨hresult, -⟩ := play_enable_high hc hj (setOnOff_of_works hw true) hlow hhigh
    rw [show r.result = _ from hresult]
    exact ⟨rfl, rfl⟩

/-- No history of faults wedges the controller. After any operations on a fresh controller, over any chip, with any failures
and any readings of the line: an enabled rail has its on/off bit set. If from then on the bus works, a switch-off succeeds,
with the rail disabled and the bit cleared; and if also the line rises, a switch-on succeeds, with the rail enabled, power
good seen and the bit set. -/
theorem switches_recover (methods : List Method) (w : Plant) :
    let s : Session Plant := Course.run Controller.call Plant.answer methods {} w
    (s.view.phase = .enabled → s.state.isOn = true) ∧
      (s.state.Works →
        let off := s.next Controller.call Plant.answer .disable
        (s.made Controller.call Plant.answer .disable).result = .ok .unit ∧
          off.view.phase = .disabled ∧ off.view.enabled = false ∧ off.state.isOn = false) ∧
      (s.state.Works → s.state.Rises →
        let on := s.next Controller.call Plant.answer .enable
        (s.made Controller.call Plant.answer .enable).result = .ok .unit ∧
          on.view.phase = .enabled ∧ on.view.enabled = true ∧ on.view.powerGoodSeen = true ∧ on.state.isOn = true) := by
  intro s
  have hs : Powered s := .run methods w
  refine ⟨hs.isOn, fun hworks => ?_, fun hworks hrises => ?_⟩
  · obtain ⟨hresult, hview, hstate⟩ := Session.made_change Plant.answer s (m := .disable) rfl
    obtain ⟨hr, hbit⟩ := play_disable_of_works s.view hworks
    rw [hr] at hresult hview
    exact ⟨hresult, congrArg Controller.phase hview, congrArg Controller.enabled hview, hstate ▸ hbit⟩
  · obtain ⟨hresult, hview, -⟩ := Session.made_change Plant.answer s (m := .enable) rfl
    obtain ⟨hr, hphase⟩ := play_enable_of_works s.view hworks hrises
    intro on
    -- The flags follow from the phase and the bit from the invariant, whether or not anything had to be done.
    have hon : Powered on := hs.next_enable
    have henabled : on.view.phase = .enabled := (congrArg Controller.phase hview).trans hphase
    refine ⟨by rw [hresult, hr]; rfl, henabled, ?_, ?_, hon.isOn henabled⟩
    · rw [hon.coherent.enabled, henabled]
      rfl
    · rw [hon.coherent.seen, henabled]
      rfl

/-- A plant whose chip does not acknowledge its third transfer, and whose line fails once, is low twice and then high. -/
def Plant.mending : Plant where
  chip.registers _ := 0x05
  chip.fates
    | 2 => .fails (.adapter (.noAcknowledge .data))
    | _ => .carriedOut
  levels
    | 0 => .error "line"
    | n + 1 => .ok (2 ≤ n)

/-- Two switch-ons fail there, and the view says the rail is off while its bit is set. From then on all works, and either
switch succeeds. -/
theorem switches_recover_mending :
    let s : Session Plant := Course.run Controller.call Plant.answer [.enable, .enable] {} Plant.mending
    let failures : List (Result Answer) := [.error (.pin "line"), .error (.bus (.adapter (.noAcknowledge .data)))]
    (s.calls.map Called.result = failures ∧ s.view.phase = .disabled ∧ s.state.isOn = true) ∧
      (s.next Controller.call Plant.answer .disable).state.isOn = false ∧
      (s.next Controller.call Plant.answer .enable).view.phase = .enabled ∧
      (s.next Controller.call Plant.answer .enable).state.isOn = true := by
  have hworks : (Course.run Controller.call Plant.answer [.enable, .enable] {} Plant.mending).state.Works := fun _ => rfl
  have hrises : (Course.run Controller.call Plant.answer [.enable, .enable] {} Plant.mending).state.Rises :=
    ⟨2, by decide, rfl, fun _ _ _ => nofun⟩
  obtain ⟨-, hdisable, henable⟩ := switches_recover [.enable, .enable] Plant.mending
  obtain ⟨-, -, -, hoff⟩ := hdisable hworks
  obtain ⟨-, hphase, -, -, hon⟩ := henable hworks hrises
  exact ⟨⟨rfl, rfl, by decide⟩, hoff, hphase, hon⟩

end PenRail.Rail
