import PenRail.Proofs.Rail.StateMachine
import PenRail.Proofs.Rail.SwitchOn

/-!
# The cached flag and the on/off bit

The view says whether the rail is on, and so does a bit in the chip. They part in one way only: a switch-on that begins
while the rail is being switched on, and whose transfer fails, takes the rail for off though its bit is set. From then on
the view is wrong until a switch goes through. The main result says when the two agree, after any operations on
any chip with any line.
-/

namespace PenRail.Rail

/-! ## What one operation does to the bit -/

/-- A part that does not write the mode register leaves the bit alone. -/
theorem isOn_of_spares {α : Type} {registers : List UInt8} {p : Program interface α}
    (hp : p.Only (Request.Spares registers)) (h : Register.operationMode ∉ registers) (w : Plant) :
    (p.play Plant.answer w).state.isOn = w.isOn := by
  unfold Plant.isOn
  rw [registers_of_spares hp h w]

/-- The bit is what was asked for, or the chip refused and it is what it was. -/
theorem isOn_setOnOff (on : Bool) (w : Plant) :
    let r := (setOnOff on).play Plant.answer w
    (r.result = .ok () ∧ r.state.isOn = on) ∨ ∃ failure, r.result = .error failure ∧ r.state.isOn = w.isOn := by
  intro r
  rcases (registers_setOnOff on w).2 with ⟨hok, hset⟩ | ⟨failure, herror, hsame⟩
  · exact .inl ⟨hok, isOn_of_registers hset⟩
  · refine .inr ⟨failure, herror, ?_⟩
    unfold Plant.isOn
    rw [hsame]

/-- Giving up on a rail that is on ends with view and bit in agreement. -/
theorem isOn_giveUp (c : Controller) (w : Plant) (hw : w.isOn = true) :
    let r := c.giveUp.play Plant.answer w
    r.result.2.enabled = r.state.isOn ∧ ∀ failure, r.result.1 ≠ .error (.bus failure) := by
  intro r
  obtain ⟨hstate, -, hresult⟩ := play_giveUp c w
  change r.state = _ at hstate
  change r.result = _ at hresult
  rcases isOn_setOnOff false w with ⟨hoff, hbit⟩ | ⟨failure, hoff, hbit⟩
  · rw [hoff] at hresult
    rw [hresult, hstate, hbit]
    exact ⟨rfl, by simp⟩
  · rw [hoff] at hresult
    rw [hresult, hstate, hbit, hw]
    exact ⟨rfl, by simp⟩

/-- So does waiting for power good. -/
theorem isOn_awaitPower (c : Controller) (w : Plant) (hw : w.isOn = true) :
    let r := (c.moveTo .enabling).awaitPower.play Plant.answer w
    r.result.2.enabled = r.state.isOn ∧ ∀ failure, r.result.1 ≠ .error (.bus failure) := by
  have hpoll : (poll.play Plant.answer w).state.isOn = true :=
    (isOn_of_spares (only_pollFrom 0 pollLimit) List.not_mem_nil w).trans hw
  simp only [Controller.awaitPower, Program.play_bind]
  generalize poll.play Plant.answer w = looked at hpoll ⊢
  rcases looked.result with reason | (_ | waits)
  · exact ⟨hpoll.symm, by simp⟩
  · simp only [Played.behind_result, Played.behind_state]
    exact isOn_giveUp (c.moveTo .enabling) looked.state hpoll
  · simp only [Program.play_bind, play_say, play_enter, Program.pure_eq, Program.play_done]
    exact ⟨hpoll.symm, by simp⟩

/-- A switch-on: nothing to do, a transfer that failed, or view and bit in agreement. -/
theorem isOn_enable (c : Controller) (w : Plant) :
    let r := c.enable.play Plant.answer w
    (c.phase = .enabled ∧ r.result = (.ok (), c) ∧ r.state.isOn = w.isOn) ∨
      (c.phase ≠ .enabled ∧ (∃ failure, r.result = (.error (.bus failure), c.moveTo .disabled)) ∧
        r.state.isOn = w.isOn) ∨
      (c.phase ≠ .enabled ∧ (∀ failure, r.result.1 ≠ .error (.bus failure)) ∧ r.result.2.enabled = r.state.isOn) := by
  by_cases hc : c.phase = .enabled
  · refine .inl ⟨hc, ?_⟩
    rw [Controller.enable, if_pos hc]
    exact ⟨rfl, rfl⟩
  rcases isOn_setOnOff true w with ⟨hon, hbit⟩ | ⟨failure, hon, hbit⟩
  · obtain ⟨hresult, hstate, -⟩ := play_enable_sent hc hon
    obtain ⟨hagree, hbus⟩ := isOn_awaitPower c _ hbit
    refine .inr (.inr ⟨hc, ?_⟩)
    rw [hresult, hstate]
    exact ⟨hbus, hagree⟩
  · obtain ⟨hresult, hstate, -⟩ := play_enable_refused hc hon
    refine .inr (.inl ⟨hc, ⟨failure, hresult⟩, ?_⟩)
    rw [hstate, hbit]

/-- A switch-off: the bit is cleared, or all is as it was. -/
theorem isOn_disable (c : Controller) (w : Plant) :
    let r := c.disable.play Plant.answer w
    (r.result = (.ok (), c.moveTo .disabled) ∧ r.state.isOn = false) ∨
      ∃ failure, r.result = (.error (.bus failure), c.moveTo c.phase) ∧ r.state.isOn = w.isOn := by
  rcases registers_disable c w with ⟨-, hresult, hset⟩ | ⟨failure, -, hresult, hsame⟩
  · exact .inl ⟨hresult, isOn_of_registers hset⟩
  · refine .inr ⟨failure, hresult, ?_⟩
    unfold Plant.isOn
    rw [hsame]

/-! ## Where they part -/

/-- A switch-on that began while the rail was being switched on, and whose transfer failed. -/
def Call.Forgets (k : Call) : Prop :=
  k.operation = .enable ∧ k.before.phase = .enabling ∧ ∃ failure, k.result = .error (.bus failure)

/-- A switch that the chip carried out: a switch-off that succeeded, or a switch-on that went further than the transfer. -/
def Call.Settles (k : Call) : Prop :=
  (k.operation = .disable ∧ k.result = .ok .unit) ∨ (k.operation = .enable ∧ ∀ failure, k.result ≠ .error (.bus failure))

/-- What a session keeps: the view agrees with the bit, or the bit is set and a forgetful call has taken it for clear. -/
structure Tracks (s : Session Plant) : Prop where
  coherent : s.view.Coherent
  agrees : (¬Stands Call.Forgets Call.Settles s.calls ∧ s.view.enabled = s.state.isOn) ∨
    (Stands Call.Forgets Call.Settles s.calls ∧ s.view.phase = .disabled ∧ s.state.isOn = true)

namespace Tracks

variable {s : Session Plant} {m : Method}

/-- A call that neither forgets nor settles keeps the balance if it leaves flag, phase and bit alone. -/
theorem of_kept {s' : Session Plant} {k : Call} (hs : Tracks s) (coherent : s'.view.Coherent)
    (hcalls : s'.calls = s.calls ++ [k]) (hforgets : ¬k.Forgets) (hsettles : ¬k.Settles)
    (hphase : s'.view.phase = s.view.phase) (hbit : s'.state.isOn = s.state.isOn) : Tracks s' := by
  have hforgotten : Stands Call.Forgets Call.Settles s'.calls ↔ Stands Call.Forgets Call.Settles s.calls := by
    rw [hcalls, stands_append]
    simp only [hforgets, hsettles, not_false_eq_true, and_true, false_or]
  refine ⟨coherent, ?_⟩
  rw [hforgotten, coherent.enabled, hphase, hbit, ← hs.coherent.enabled]
  exact hs.agrees

/-- A call that settles has view and bit agree. -/
theorem of_settled {s' : Session Plant} {k : Call} (coherent : s'.view.Coherent) (hcalls : s'.calls = s.calls ++ [k])
    (hforgets : ¬k.Forgets) (hsettles : k.Settles) (hagree : s'.view.enabled = s'.state.isOn) : Tracks s' := by
  refine ⟨coherent, .inl ⟨?_, hagree⟩⟩
  rw [hcalls, stands_append]
  rintro (hk | ⟨-, hk⟩)
  · exact hforgets hk
  · exact hk hsettles

/-- While the rail is not off in the view, nothing is forgotten. -/
theorem isOn_eq (hs : Tracks s) (hp : s.view.phase ≠ .disabled) : s.state.isOn = s.view.phase.isOn := by
  rcases hs.agrees with ⟨-, hagree⟩ | ⟨-, hoff, -⟩
  · rw [← hagree, hs.coherent.enabled]
  · exact absurd hoff hp

theorem next_of_not_switches (hs : Tracks s) (hm : m.switches = false) : Tracks (s.next Controller.call Plant.answer m) := by
  have hcoherent := ((Session.possible_made Plant.answer s m).coherent hs.coherent).1
  obtain ⟨fault, hview⟩ := ends_call_view hm (s.ends_made Controller.call Plant.answer m)
  have hphase : (s.made Controller.call Plant.answer m).after.phase = s.view.phase :=
    (congrArg Controller.phase hview).trans rfl
  have hspared : Register.operationMode ∉ m.footprint := Method.operationMode_not_mem_footprint hm
  refine hs.of_kept hcoherent rfl ?_ ?_ hphase (isOn_of_spares (only_call_footprint s.view m) hspared s.state)
  · rintro ⟨he, -⟩
    change m = _ at he
    cases he
    cases hm
  · rintro (⟨he, -⟩ | ⟨he, -⟩)
    all_goals
      change m = _ at he
      cases he
      cases hm

theorem next_enable (hs : Tracks s) : Tracks (s.next Controller.call Plant.answer .enable) := by
  let k : Call := s.made Controller.call Plant.answer .enable
  have hcoherent : (s.next Controller.call Plant.answer .enable).view.Coherent :=
    ((Session.possible_made Plant.answer s .enable).coherent hs.coherent).1
  obtain ⟨hresult, hview, hstate⟩ := Session.made_change Plant.answer s (m := .enable) rfl
  change k.result = _ at hresult
  rcases isOn_enable s.view s.state with ⟨hp, hr, hbit⟩ | ⟨hp, ⟨failure, hr⟩, hbit⟩ | ⟨hp, hbus, hagree⟩
  · rw [hr] at hresult hview
    refine of_settled hcoherent rfl ?_ (.inr ⟨rfl, ?_⟩) ?_
    · rintro ⟨-, he, -⟩
      exact absurd (hp.symm.trans he) (by decide)
    · intro failure hk
      cases hresult.symm.trans hk
    · rw [hview, hstate, hbit, hs.isOn_eq (by rw [hp]; decide), hs.coherent.enabled]
  · rw [hr] at hresult hview
    have hsettles : ¬k.Settles := by
      rintro (⟨he, -⟩ | ⟨-, he⟩)
      · cases he
      · exact he failure hresult
    by_cases henabling : s.view.phase = .enabling
    · -- The bit was set and still is, but the view says the rail is off.
      refine ⟨hcoherent, .inr ⟨stands_append.2 (.inl ⟨rfl, henabling, failure, hresult⟩), ?_, ?_⟩⟩
      · rw [hview]
        rfl
      · rw [hstate, hbit, hs.isOn_eq (by rw [henabling]; decide), henabling]
        rfl
    · have hoff : s.view.phase = .disabled := by
        have hway := hs.coherent.notDisabling
        cases hphase : s.view.phase <;> simp_all
      refine hs.of_kept hcoherent rfl (fun hk => henabling hk.2.1) hsettles ?_ (by rw [hstate, hbit])
      rw [hview, hoff]
      rfl
  · have hgone (failure : Bus.Failure) : k.result ≠ .error (.bus failure) := by
      rw [hresult, ne_eq, map_eq_error]
      exact hbus failure
    refine of_settled hcoherent rfl ?_ (.inr ⟨rfl, hgone⟩) ?_
    · rintro ⟨-, -, failure, hk⟩
      exact hgone failure hk
    · rw [hview, hstate, hagree]

theorem next_disable (hs : Tracks s) : Tracks (s.next Controller.call Plant.answer .disable) := by
  let k : Call := s.made Controller.call Plant.answer .disable
  have hcoherent : (s.next Controller.call Plant.answer .disable).view.Coherent :=
    ((Session.possible_made Plant.answer s .disable).coherent hs.coherent).1
  obtain ⟨hresult, hview, hstate⟩ := Session.made_change Plant.answer s (m := .disable) rfl
  change k.result = _ at hresult
  have hforgets : ¬k.Forgets := by
    rintro ⟨he, -⟩
    cases he
  rcases isOn_disable s.view s.state with ⟨hr, hbit⟩ | ⟨failure, hr, hbit⟩
  · rw [hr] at hresult hview
    refine of_settled hcoherent rfl hforgets (.inl ⟨rfl, hresult⟩) ?_
    rw [hview, hstate, hbit]
    rfl
  · rw [hr] at hresult hview
    refine hs.of_kept hcoherent rfl hforgets ?_ (by rw [hview]; rfl) (by rw [hstate, hbit])
    rintro (⟨-, hk⟩ | ⟨he, -⟩)
    · cases hresult.symm.trans hk
    · cases he

theorem next (hs : Tracks s) (m : Method) : Tracks (s.next Controller.call Plant.answer m) := by
  cases hm : m.switches with
  | false => exact hs.next_of_not_switches hm
  | true =>
    rcases Method.eq_of_switches hm with rfl | rfl
    · exact hs.next_enable
    · exact hs.next_disable

theorem run {w : Plant} (hw : w.isOn = false) (methods : List Method) :
    Tracks (Course.run Controller.call Plant.answer methods {} w) :=
  Course.always Controller.call Plant.answer Tracks ⟨.fresh, .inl ⟨not_stands_nil, hw.symm⟩⟩ fun _ m _ hs => hs.next m

end Tracks

/-- After any operations on a fresh controller, over any chip whose on/off bit was clear, with any failures and any
readings of the line: the cached flag agrees with the bit exactly when no switch-on has forgotten it, or a switch has
settled it since; and when it does not agree, the view says disabled and the bit is set. -/
theorem enabled_eq_isOn_iff (methods : List Method) (w : Plant) (hw : w.isOn = false) :
    let s : Session Plant := Course.run Controller.call Plant.answer methods {} w
    (s.view.enabled = s.state.isOn ↔ ¬Stands Call.Forgets Call.Settles s.calls) ∧
      (Stands Call.Forgets Call.Settles s.calls → s.view.phase = .disabled ∧ s.view.enabled = false ∧ s.state.isOn = true) := by
  intro s
  have hs : Tracks s := .run hw methods
  have hoff (hp : s.view.phase = .disabled) : s.view.enabled = false := by
    rw [hs.coherent.enabled, hp]
    rfl
  rcases hs.agrees with ⟨hnot, hagree⟩ | ⟨hforgotten, hp, hon⟩
  · exact ⟨⟨fun _ => hnot, fun _ => hagree⟩, fun h => absurd h hnot⟩
  · refine ⟨⟨fun hagree => ?_, fun h => absurd hforgotten h⟩, fun _ => ⟨hp, hoff hp, hon⟩⟩
    rw [hoff hp, hon] at hagree
    cases hagree

/-- A plant whose line cannot be read, and whose chip does not acknowledge its third transfer. -/
def Plant.broken : Plant :=
  ⟨⟨fun _ => 0x00, fun i => if i = 2 then .fails (.adapter (.noAcknowledge .data)) else .carriedOut⟩, fun _ => .error "line"⟩

/-- There the first switch-on leaves flag and bit in agreement, and the second one forgets the bit. -/
theorem enabled_eq_isOn_iff_broken :
    let once : Session Plant := Course.run Controller.call Plant.answer [.enable] {} Plant.broken
    let twice : Session Plant := Course.run Controller.call Plant.answer [.enable, .enable] {} Plant.broken
    Plant.broken.isOn = false ∧ ¬Stands Call.Forgets Call.Settles once.calls ∧ once.view.enabled = true ∧
      Stands Call.Forgets Call.Settles twice.calls ∧ twice.view.phase = .disabled ∧ twice.view.enabled = false ∧
      twice.state.isOn = true := by
  intro once twice
  have hclear : Plant.broken.isOn = false := by decide
  obtain ⟨honce, -⟩ := enabled_eq_isOn_iff [.enable] Plant.broken hclear
  obtain ⟨htwice, hparted⟩ := enabled_eq_isOn_iff [.enable, .enable] Plant.broken hclear
  have hagree : once.view.enabled = once.state.isOn := by decide
  have hforgotten : Stands Call.Forgets Call.Settles twice.calls :=
    Classical.not_not.1 fun h => absurd (htwice.2 h) (by decide)
  exact ⟨hclear, honce.1 hagree, by decide, hforgotten, hparted hforgotten⟩

/-- So the flag does not follow the bit always. -/
theorem not_always_enabled_eq_isOn :
    ¬∀ (methods : List Method) (w : Plant), w.isOn = false →
      let s : Session Plant := Course.run Controller.call Plant.answer methods {} w
      s.view.enabled = s.state.isOn := by
  intro h
  exact absurd (h [.enable, .enable] Plant.broken (by decide)) (by decide)

end PenRail.Rail
