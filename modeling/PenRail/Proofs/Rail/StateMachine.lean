import PenRail.Proofs.Rail.Session

/-!
# The rail as a state machine

Between operations the rail is off, being switched on, or on: the cached flags say no more than its phase, and the phase
says no more than which switch succeeded last. Within an operation the enabled phase is entered in two ways only. All of
it holds whatever the chip and the power-good line answer.
-/

namespace PenRail.Rail

/-- The flags are no others than the phase allows: the on/off flag is that of the phase, and power good is not remembered
once the rail is off. -/
structure Controller.Consistent (c : Controller) : Prop where
  enabled : c.enabled = c.phase.isOn
  unseen : c.phase = .disabled → c.powerGoodSeen = false

/-- Entering the phase it is in leaves a consistent view as it is, and no other. -/
theorem Controller.moveTo_phase_eq_iff (c : Controller) : c.moveTo c.phase = c ↔ c.Consistent := by
  constructor
  · intro h
    have henabled : c.phase.isOn = c.enabled := congrArg Controller.enabled h
    have hseen : (if c.phase = .disabled then false else c.powerGoodSeen) = c.powerGoodSeen :=
      congrArg Controller.powerGoodSeen h
    refine ⟨henabled.symm, fun hoff => ?_⟩
    rw [if_pos hoff] at hseen
    exact hseen.symm
  · intro h
    have hseen : (if c.phase = .disabled then false else c.powerGoodSeen) = c.powerGoodSeen := by
      by_cases hoff : c.phase = .disabled
      · rw [if_pos hoff, h.unseen hoff]
      · rw [if_neg hoff]
    unfold Controller.moveTo
    rw [hseen, ← h.enabled]

/-- The cached flags agree with the phase, and the rail is not on its way off. -/
structure Controller.Coherent (c : Controller) : Prop where
  notDisabling : c.phase ≠ .disabling
  enabled : c.enabled = c.phase.isOn
  seen : c.powerGoodSeen = decide (c.phase = .enabled)

namespace Controller.Coherent

variable {c : Controller}

theorem fresh : ({} : Controller).Coherent :=
  ⟨by decide, rfl, rfl⟩

theorem withFault (h : c.Coherent) (fault : Fault) : ({ c with lastFault := fault } : Controller).Coherent :=
  ⟨h.notDisabling, h.enabled, h.seen⟩

theorem off (c : Controller) : (c.moveTo .disabled).Coherent :=
  ⟨by simp, rfl, rfl⟩

theorem on (c : Controller) : (({ c with powerGoodSeen := true } : Controller).moveTo .enabled).Coherent :=
  ⟨by simp, rfl, rfl⟩

theorem enabling (h : c.Coherent) (hp : c.phase ≠ .enabled) : (c.moveTo .enabling).Coherent := by
  refine ⟨by simp, rfl, ?_⟩
  have hseen := h.seen
  simp only [hp, decide_false] at hseen
  exact hseen

theorem consistent (h : c.Coherent) : c.Consistent := by
  refine ⟨h.enabled, fun hoff => ?_⟩
  rw [h.seen, hoff]
  rfl

/-- A coherent view is what moving to its own phase gives. -/
theorem moveTo_phase (h : c.Coherent) : c.moveTo c.phase = c :=
  c.moveTo_phase_eq_iff.2 h.consistent

end Controller.Coherent

namespace Call

/-- Whether the call switched the rail: on or off, and with success. -/
def switched (k : Call) : Bool :=
  k.operation.switches && k.result.isOk

@[simp] theorem switched_ok (c c' : Controller) (m : Method) (a : Answer) (h : History interface) :
    switched ⟨c, m, .ok a, c', h⟩ = m.switches :=
  Bool.and_true m.switches

@[simp] theorem switched_error (c c' : Controller) (m : Method) (e : Error) (h : History interface) :
    switched ⟨c, m, .error e, c', h⟩ = false :=
  Bool.and_false m.switches

/-- The changes of phase during the call lead from the phase before to the one after, and the enabled phase was entered
only from enabling, after the line read high, or when a switch-off failed that began on an enabled rail. -/
def EntersLawfully (k : Call) : Prop :=
  Follows k.before.phase k.history k.after.phase ∧
    ∀ earlier a later, k.history = earlier ++ moved a .enabled :: later →
      (a = .enabling ∧ (acts earlier).getLast? = some sawHigh) ∨
        (a = .disabling ∧ k.operation = .disable ∧ k.before.phase = .enabled ∧ ∃ e, k.result = .error e)

end Call

/-- The last operation that switched the rail, if there was one. -/
def lastSwitch (calls : List Call) : Option Method :=
  (calls.filter Call.switched).getLast?.map Called.operation

theorem lastSwitch_append (calls : List Call) (k : Call) :
    lastSwitch (calls ++ [k]) = if k.switched then some k.operation else lastSwitch calls := by
  unfold lastSwitch
  cases hk : k.switched <;> simp [List.filter_append, hk]

/-- A first entry into the enabled phase that ends a history is the only one in it. -/
theorem NeverEnters.entry_unique {before earlier later : History interface} {x : Exchange interface} {a : Phase}
    (never : NeverEnters before) (h : before ++ [x] = earlier ++ moved a .enabled :: later) :
    before = earlier ∧ x = moved a .enabled := by
  rcases List.append_eq_append_iff.1 h with ⟨l, rfl, hl⟩ | ⟨l, rfl, hl⟩
  · rcases l with _ | ⟨y, l⟩
    · exact ⟨(List.append_nil _).symm, (List.cons.inj hl).1⟩
    · simp at hl
  · rcases l with _ | ⟨y, l⟩
    · exact ⟨List.append_nil _, (List.cons.inj hl).1.symm⟩
    · obtain ⟨rfl, -⟩ := List.cons.inj hl
      exact absurd rfl (never _ (by simp) a)

theorem NeverEnters.not_entry {h earlier later : History interface} {a : Phase} (never : NeverEnters h)
    (hh : h = earlier ++ moved a .enabled :: later) : False :=
  never _ (by simp [hh]) a rfl

theorem moved_inj {a b a' b' : Phase} (h : moved a b = moved a' b') : a = a' ∧ b = b' :=
  moveEntry_inj (Request.log.inj (congrArg Exchange.request h))

/-- A switch-on enters the enabled phase from enabling, with a high reading as the last act before. -/
theorem SwitchedOn.entry {c : Controller} {h earlier later : History interface} {o : Outcome Unit} {a : Phase}
    (hon : SwitchedOn c h o) (hh : h = earlier ++ moved a .enabled :: later) :
    a = .enabling ∧ (acts earlier).getLast? = some sawHigh := by
  cases hon with
  | good hnever hlast =>
    obtain ⟨rfl, hentry⟩ := hnever.entry_unique hh
    exact ⟨(moved_inj hentry).1.symm, hlast⟩
  | refused failure hnever => exact (hnever.not_entry hh).elim
  | unreadable reason hnever => exact (hnever.not_entry hh).elim
  | timeout hnever => exact (hnever.not_entry hh).elim
  | timeoutRailOn failure hnever => exact (hnever.not_entry hh).elim

/-- A failed switch-off enters the enabled phase if it comes back to it. -/
theorem NeverEnters.entry_back {c : Controller} {before earlier later : History interface} {a : Phase}
    (never : NeverEnters before)
    (hh : before ++ (c.moveTo .disabling).moves c.phase = earlier ++ moved a .enabled :: later) :
    a = .disabling ∧ c.phase = .enabled := by
  by_cases hp : c.phase = .enabled
  · have hmoves : (c.moveTo .disabling).moves c.phase = [moved .disabling .enabled] := by
      rw [hp]
      rfl
    rw [hmoves] at hh
    obtain ⟨-, hentry⟩ := never.entry_unique hh
    exact ⟨(moved_inj hentry).1.symm, hp⟩
  · exact ((never.append ((c.moveTo .disabling).neverEnters_moves c.phase hp)).not_entry hh).elim

/-- Any call, from any view, goes through the phases lawfully. -/
theorem Call.Possible.entersLawfully {k : Call} (hk : k.Possible) : k.EntersLawfully := by
  rcases hk.cases with ⟨-, hstill, fault, hafter⟩ | ⟨-, r, ho, -⟩ | ⟨hm, r, ho, hr⟩
  · rw [Call.EntersLawfully, hafter]
    refine ⟨.still hstill, fun earlier a later hh => ?_⟩
    exact (hstill.neverEnters.not_entry hh).elim
  · rcases ends_enable ho with ⟨-, hnil, ho⟩ | ⟨-, hon, hfollows⟩
    · obtain ⟨-, hafter⟩ := Prod.mk.inj ho
      rw [Call.EntersLawfully, hnil, hafter]
      exact ⟨.still still_nil, fun earlier a later hh => by simp at hh⟩
    · exact ⟨hfollows, fun earlier a later hh => .inl (hon.entry hh)⟩
  · obtain ⟨hfollows, hends⟩ := ends_disable ho
    refine ⟨hfollows, fun earlier a later hh => ?_⟩
    rcases hends with ⟨-, hnever⟩ | ⟨failure, before, ho, hnever, hback⟩
    · exact (hnever.not_entry hh).elim
    · rw [hback] at hh
      obtain ⟨ha, hp⟩ := hnever.entry_back hh
      refine .inr ⟨ha, hm, hp, .bus failure, ?_⟩
      rw [hr, (Prod.mk.inj ho).1]
      rfl

/-- A call keeps the view coherent, and afterwards the rail is enabled if the call enabled it, or left it alone and it was
enabled before. -/
theorem Call.Possible.coherent {k : Call} (hk : k.Possible) (hc : k.before.Coherent) :
    k.after.Coherent ∧
      (k.after.phase = .enabled ↔ if k.switched then k.operation = .enable else k.before.phase = .enabled) := by
  obtain ⟨c, m, result, c', h⟩ := k
  change c.Coherent at hc
  have hcases := hk.cases
  dsimp only at hcases
  rcases hcases with ⟨hm, -, fault, rfl⟩ | ⟨rfl, r, ho, rfl⟩ | ⟨rfl, r, ho, rfl⟩
  · exact ⟨hc.withFault fault, by simp [Call.switched, hm]⟩
  · rcases ends_enable ho with ⟨hp, -, heq⟩ | ⟨hp, hon, -⟩
    · obtain ⟨rfl, rfl⟩ := Prod.mk.inj heq
      exact ⟨hc, by simp [Except.map, Method.switches, hp]⟩
    · cases hon with
      | good => exact ⟨.on c, by simp [Except.map, Method.switches]⟩
      | refused => exact ⟨.off c, by simp [Except.map, hp]⟩
      | unreadable => exact ⟨hc.enabling hp, by simp [Except.map, hp]⟩
      | timeout => exact ⟨.off c, by simp [Except.map, hp]⟩
      | timeoutRailOn => exact ⟨hc.enabling hp, by simp [Except.map, hp]⟩
  · obtain ⟨-, ⟨heq, -⟩ | ⟨failure, before, heq, -, -⟩⟩ := ends_disable ho
    · obtain ⟨rfl, rfl⟩ := Prod.mk.inj heq
      exact ⟨.off c, by simp [Except.map, Method.switches]⟩
    · obtain ⟨rfl, rfl⟩ := Prod.mk.inj heq
      rw [hc.moveTo_phase]
      exact ⟨hc, by simp [Except.map]⟩

/-- What a session keeps from call to call. -/
structure Orderly {σ : Type} (s : Session σ) : Prop where
  coherent : s.view.Coherent
  enabled_iff : s.view.phase = .enabled ↔ lastSwitch s.calls = some .enable
  lawful : ∀ k ∈ s.calls, Call.EntersLawfully k

theorem orderly_run {σ : Type} (answer : Answerer interface σ) (methods : List Method) (start : σ) :
    Orderly (Course.run Controller.call answer methods {} start) := by
  refine Course.always Controller.call answer Orderly ⟨.fresh, by simp [lastSwitch], by simp⟩ fun s m _ hs => ?_
  have hmade := Session.possible_made answer s m
  obtain ⟨hcoherent, hphase⟩ := hmade.coherent hs.coherent
  refine ⟨hcoherent, ?_, fun k hk => ?_⟩
  · rw [Course.next, lastSwitch_append, hphase]
    split
    · exact Option.some_inj.symm
    · exact hs.enabled_iff
  · rcases List.mem_append.1 hk with hk | hk
    · exact hs.lawful k hk
    · obtain rfl := List.mem_singleton.1 hk
      exact hmade.entersLawfully

/-- The rail's state machine. After any operations on a fresh controller, whatever they were answered: the rail is not on
its way off; it counts as enabled while it is enabling or enabled; power good counts as seen exactly when it is enabled;
and it is enabled exactly when the last switch that succeeded was a switch-on. Every call goes from the phase before it
to the phase after it in the changes its history shows, and enters the enabled phase only from enabling with a high
reading of the line as its last act, or from disabling when a switch-off of an enabled rail fails. -/
theorem session_state_machine {σ : Type} (answer : Answerer interface σ) (methods : List Method) (start : σ) :
    let s : Session σ := Course.run Controller.call answer methods {} start
    s.view.phase ≠ .disabling ∧
      (s.view.enabled = true ↔ s.view.phase = .enabling ∨ s.view.phase = .enabled) ∧
      (s.view.powerGoodSeen = true ↔ s.view.phase = .enabled) ∧
      (s.view.phase = .enabled ↔ lastSwitch s.calls = some .enable) ∧
      ∀ k ∈ s.calls, Follows k.before.phase k.history k.after.phase ∧
        ∀ earlier a later, k.history = earlier ++ moved a .enabled :: later →
          (a = .enabling ∧ (acts earlier).getLast? = some sawHigh) ∨
            (a = .disabling ∧ k.operation = .disable ∧ k.before.phase = .enabled ∧ ∃ e, k.result = .error e) := by
  intro s
  have hs : Orderly s := orderly_run answer methods start
  refine ⟨hs.coherent.notDisabling, ?_, ?_, hs.enabled_iff, hs.lawful⟩
  · rw [hs.coherent.enabled]
    cases s.view.phase <;> simp [Phase.isOn]
  · rw [hs.coherent.seen]
    exact decide_eq_true_iff

end PenRail.Rail
