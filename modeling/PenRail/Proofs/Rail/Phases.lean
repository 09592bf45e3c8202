import PenRail.Proofs.Rail.Moves

/-!
# What switching on and off can do

Each way in which `enable` and `disable` can end, whatever the chip and the power-good line answer: the result, the view
and the phases gone through. Everything that is said about the controller's phase follows from these two lists of cases,
`ends_enable` and `ends_disable`, and from `still_call`, which says that no other operation touches the phase.
-/

namespace PenRail.Rail

open Program (ends_bind ends_done ends_ask ends_request Only)

theorem not_isMove_of_storesIn {registers : List UInt8} {q : Request} (h : q.StoresIn registers) : ¬q.IsMove := by
  rintro ⟨a, b, rfl⟩
  exact h

/-- A part that only uses the bus changes no phase. -/
theorem still_of_only {registers : List UInt8} {α : Type} {p : Program interface α}
    (hp : p.Only (Request.StoresIn registers)) {h : History interface} {a : α} (he : p.Ends h a) : Still h :=
  fun x hx => not_isMove_of_storesIn (hp.ends he x hx)

theorem still_setOnOff {on : Bool} {h : History interface} {r : Except Bus.Failure Unit} (he : (setOnOff on).Ends h r) :
    Still h :=
  still_of_only (only_setOnOff on) he

/-- Switching off changes no phase by itself. -/
theorem still_switchOff {h : History interface} {r : Except Bus.Failure Unit} (he : switchOff.Ends h r) : Still h := by
  obtain ⟨h₁, r₁, _, rfl, hset, hrest⟩ := ends_bind.1 he
  obtain ⟨h₂, u, _, rfl, hdelay, hdone⟩ := ends_bind.1 hrest
  obtain rfl := ends_request.1 hdelay
  obtain ⟨rfl, rfl⟩ := ends_done.1 hdone
  refine (still_setOnOff hset).append ?_
  simp [Still, Request.IsMove]

/-- Polling changes no phase. If it saw power good, that was the last thing it did. -/
theorem ends_pollFrom {budget waits : Nat} {h : History interface} {r : Polled} (he : (pollFrom waits budget).Ends h r) :
    Still h ∧ ∀ n, r = .ok (some n) → (acts h).getLast? = some sawHigh := by
  induction budget generalizing waits h with
  | zero =>
    obtain ⟨rfl, rfl⟩ := ends_done.1 he
    exact ⟨still_nil, by simp⟩
  | succ budget ih =>
    obtain ⟨_, level, later, rfl, hread, hrest⟩ := ends_bind.1 he
    obtain rfl := ends_request.1 hread
    have hlook : Still [(⟨.powerGood, level⟩ : Exchange interface)] := by simp [Still, Request.IsMove]
    rcases level with reason | (_ | _)
    · obtain ⟨h₁, u, _, rfl, hsay, hdone⟩ := ends_bind.1 hrest
      obtain rfl := ends_say.1 hsay
      obtain ⟨rfl, rfl⟩ := ends_done.1 hdone
      exact ⟨hlook.append (still_say (error_ne_moveEntry _)), by simp⟩
    · obtain ⟨h₁, u, h₂, rfl, hdelay, hpoll⟩ := ends_bind.1 hrest
      obtain rfl := ends_request.1 hdelay
      obtain ⟨hstill, hlast⟩ := ih hpoll
      have hwait : Still [(⟨.delay millisecond, ()⟩ : Exchange interface)] := by simp [Still, Request.IsMove]
      refine ⟨hlook.append (hwait.append hstill), fun n hn => ?_⟩
      have hgood := hlast n hn
      rw [acts_append, acts_append, List.getLast?_append, List.getLast?_append, hgood]
      rfl
    · obtain ⟨rfl, rfl⟩ := ends_done.1 hrest
      exact ⟨hlook, fun _ _ => rfl⟩

/-- In the history no phase is left for the enabled one. -/
def NeverEnters (h : History interface) : Prop :=
  ∀ x ∈ h, ∀ a, x ≠ moved a .enabled

theorem Still.neverEnters {h : History interface} (still : Still h) : NeverEnters h := by
  rintro x hx a rfl
  exact still _ hx (isMove_moved a .enabled)

theorem NeverEnters.append {h₁ h₂ : History interface} (never₁ : NeverEnters h₁) (never₂ : NeverEnters h₂) :
    NeverEnters (h₁ ++ h₂) := by
  intro x hx
  rcases List.mem_append.1 hx with hx | hx
  · exact never₁ x hx
  · exact never₂ x hx

theorem Controller.neverEnters_moves (c : Controller) (next : Phase) (h : next ≠ .enabled) : NeverEnters (c.moves next) := by
  unfold Controller.moves
  by_cases hp : c.phase = next
  · simp [hp, NeverEnters]
  · rw [if_neg hp]
    intro x hx a he
    obtain rfl := List.mem_singleton.1 hx
    exact h (moveEntry_inj (Request.log.inj (congrArg Exchange.request he))).2

theorem powerGoodEntry_ne_moveEntry (waits : Nat) (a b : Phase) :
    (⟨.debug, s!"Power good OK (took _ ms, {waits} waits)"⟩ : Log.Entry) ≠ moveEntry a b := by
  intro h
  have hfirst := congrArg (fun e : Log.Entry => e.text.toList.head?) h
  simp [moveEntry, toString] at hfirst

/-- Giving up ends with the rail off, or still on if the chip could not be told. -/
theorem ends_giveUp {c : Controller} {h : History interface} {o : Outcome Unit} (he : c.giveUp.Ends h o) :
    NeverEnters h ∧ Follows c.phase h o.2.phase ∧
      (o = (.error (.timeout pollLimit), c.moveTo .disabled) ∨
        ∃ failure, o = (.error (.timeoutRailOn failure), c.moveTo .enabling)) := by
  simp only [Controller.giveUp, ends_bind, ends_say, ends_enter] at he
  obtain ⟨_, _, _, rfl, rfl, _, _, _, rfl, ⟨rfl, rfl⟩, off, outcome, _, rfl, hoff, hrest⟩ := he
  have hsaid : Still [(⟨.log ⟨.error, "Power good signal timeout after _ ms"⟩, ()⟩ : Exchange interface)] :=
    still_say (error_ne_moveEntry _)
  have hstill := still_switchOff hoff
  have hleave := c.neverEnters_moves .disabling (by decide)
  cases outcome with
  | error failure =>
    have hfail := still_say (error_ne_moveEntry ("Failed to disable rail after timeout: " ++ failure.message))
    simp only [ends_bind, ends_say, ends_enter, Program.pure_eq, ends_done] at hrest
    obtain ⟨_, _, _, rfl, rfl, _, _, _, rfl, ⟨rfl, rfl⟩, rfl, rfl⟩ := hrest
    rw [List.append_nil, Controller.moveTo_moveTo _ _ (by decide)]
    refine ⟨?_, ?_, .inr ⟨failure, rfl⟩⟩
    · exact hsaid.neverEnters.append (hleave.append (hstill.neverEnters.append (hfail.neverEnters.append
        (Controller.neverEnters_moves _ _ (by decide)))))
    · exact .behind_still hsaid ((c.follows_moves .disabling).trans (.behind_still hstill (.behind_still hfail
        (Controller.follows_moves (c.moveTo .disabling) .enabling))))
  | ok =>
    simp only [ends_bind, ends_enter, Program.pure_eq, ends_done] at hrest
    obtain ⟨_, _, _, rfl, ⟨rfl, rfl⟩, rfl, rfl⟩ := hrest
    rw [List.append_nil, Controller.moveTo_moveTo _ _ (by decide)]
    refine ⟨?_, ?_, .inl rfl⟩
    · exact hsaid.neverEnters.append (hleave.append (hstill.neverEnters.append
        (Controller.neverEnters_moves _ _ (by decide))))
    · exact .behind_still hsaid ((c.follows_moves .disabling).trans (.behind_still hstill
        (Controller.follows_moves (c.moveTo .disabling) .disabled)))

/-- How a switch-on that found the rail not enabled can end: enabled, right after the line read high, or not enabled at
all. -/
inductive SwitchedOn (c : Controller) : History interface → Outcome Unit → Prop
  | good {before : History interface} : NeverEnters before → (acts before).getLast? = some sawHigh →
      SwitchedOn c (before ++ [moved .enabling .enabled])
        (.ok (), ({ c with powerGoodSeen := true } : Controller).moveTo .enabled)
  | refused {h : History interface} (failure : Bus.Failure) :
      NeverEnters h → SwitchedOn c h (.error (.bus failure), c.moveTo .disabled)
  | unreadable {h : History interface} (reason : String) :
      NeverEnters h → SwitchedOn c h (.error (.pin reason), c.moveTo .enabling)
  | timeout {h : History interface} : NeverEnters h → SwitchedOn c h (.error (.timeout pollLimit), c.moveTo .disabled)
  | timeoutRailOn {h : History interface} (failure : Bus.Failure) :
      NeverEnters h → SwitchedOn c h (.error (.timeoutRailOn failure), c.moveTo .enabling)

/-- Something still before it changes nothing about how a switch-on ends. -/
theorem SwitchedOn.behind {c : Controller} {earlier h : History interface} {o : Outcome Unit}
    (never : NeverEnters earlier) (hon : SwitchedOn c h o) : SwitchedOn c (earlier ++ h) o := by
  cases hon with
  | good hnever hlast =>
    rw [← List.append_assoc]
    refine .good (never.append hnever) ?_
    rw [acts_append, List.getLast?_append, hlast]
    rfl
  | refused failure hnever => exact .refused failure (never.append hnever)
  | unreadable reason hnever => exact .unreadable reason (never.append hnever)
  | timeout hnever => exact .timeout (never.append hnever)
  | timeoutRailOn failure hnever => exact .timeoutRailOn failure (never.append hnever)

theorem ends_awaitPower {c : Controller} {h : History interface} {o : Outcome Unit}
    (he : (c.moveTo .enabling).awaitPower.Ends h o) : SwitchedOn c h o ∧ Follows .enabling h o.2.phase := by
  simp only [Controller.awaitPower, ends_bind] at he
  obtain ⟨looks, polled, _, rfl, hpoll, hrest⟩ := he
  obtain ⟨hstill, hlast⟩ := ends_pollFrom hpoll
  rcases polled with reason | (_ | waits)
  · obtain ⟨rfl, rfl⟩ := ends_done.1 hrest
    rw [List.append_nil]
    exact ⟨.unreadable reason hstill.neverEnters, .still hstill⟩
  · obtain ⟨hnever, hfollows, ho⟩ := ends_giveUp hrest
    refine ⟨.behind hstill.neverEnters ?_, .behind_still hstill hfollows⟩
    rw [Controller.moveTo_moveTo _ _ (by decide), Controller.moveTo_moveTo _ _ (by decide)] at ho
    obtain rfl | ⟨failure, rfl⟩ := ho
    · exact .timeout hnever
    · exact .timeoutRailOn failure hnever
  · simp only [ends_bind, ends_say, ends_enter, Program.pure_eq, ends_done] at hrest
    obtain ⟨_, _, _, rfl, rfl, _, _, _, rfl, ⟨rfl, rfl⟩, rfl, rfl⟩ := hrest
    have hsaid := still_say (powerGoodEntry_ne_moveEntry waits)
    have hbefore := hstill.append hsaid
    rw [List.append_nil, ← List.append_assoc]
    refine ⟨.good hbefore.neverEnters ?_, .move hbefore (.still still_nil)⟩
    rw [acts_append, List.getLast?_append, hlast waits rfl]
    rfl

/-- Switching on: an enabled rail is left alone, any other ends in one of the ways of `SwitchedOn`. -/
theorem ends_enable {c : Controller} {h : History interface} {o : Outcome Unit} (he : c.enable.Ends h o) :
    (c.phase = .enabled ∧ h = [] ∧ o = (.ok (), c)) ∨
      (c.phase ≠ .enabled ∧ SwitchedOn c h o ∧ Follows c.phase h o.2.phase) := by
  unfold Controller.enable at he
  by_cases hp : c.phase = .enabled
  · rw [if_pos hp] at he
    obtain ⟨rfl, rfl⟩ := ends_done.1 he
    exact .inl ⟨hp, rfl, rfl⟩
  · rw [if_neg hp] at he
    simp only [ends_bind, ends_enter] at he
    obtain ⟨_, _, _, rfl, ⟨rfl, rfl⟩, sent, outcome, _, rfl, hset, hrest⟩ := he
    have hstill := still_setOnOff hset
    have hleave := c.neverEnters_moves .enabling (by decide)
    refine .inr ⟨hp, ?_⟩
    cases outcome with
    | error failure =>
      simp only [ends_bind, ends_enter, Program.pure_eq, ends_done] at hrest
      obtain ⟨_, _, _, rfl, ⟨rfl, rfl⟩, rfl, rfl⟩ := hrest
      rw [List.append_nil, Controller.moveTo_moveTo _ _ (by decide)]
      refine ⟨.refused failure (hleave.append (hstill.neverEnters.append (Controller.neverEnters_moves _ _ (by decide)))), ?_⟩
      exact (c.follows_moves .enabling).trans (.behind_still hstill (Controller.follows_moves (c.moveTo .enabling) .disabled))
    | ok =>
      obtain ⟨hon, hfollows⟩ := ends_awaitPower hrest
      exact ⟨.behind hleave (.behind hstill.neverEnters hon), (c.follows_moves .enabling).trans (.behind_still hstill hfollows)⟩

/-- Switching off: the rail is off, or the view is what it was and the rail comes back from where it was going. -/
theorem ends_disable {c : Controller} {h : History interface} {o : Outcome Unit} (he : c.disable.Ends h o) :
    Follows c.phase h o.2.phase ∧
      ((o = (.ok (), c.moveTo .disabled) ∧ NeverEnters h) ∨
        ∃ failure before, o = (.error (.bus failure), c.moveTo c.phase) ∧ NeverEnters before ∧
          h = before ++ (c.moveTo .disabling).moves c.phase) := by
  simp only [Controller.disable, ends_bind, ends_enter] at he
  obtain ⟨_, _, _, rfl, ⟨rfl, rfl⟩, off, outcome, _, rfl, hoff, hrest⟩ := he
  have hstill := still_switchOff hoff
  have hbefore := (c.neverEnters_moves .disabling (by decide)).append hstill.neverEnters
  cases outcome with
  | error failure =>
    simp only [ends_bind, ends_enter, Program.pure_eq, ends_done] at hrest
    obtain ⟨_, _, _, rfl, ⟨rfl, rfl⟩, rfl, rfl⟩ := hrest
    have hfollows := (c.follows_moves .disabling).trans (.behind_still hstill ((c.moveTo .disabling).follows_moves c.phase))
    rw [List.append_nil, Controller.moveTo_moveTo _ _ (by decide)]
    exact ⟨hfollows, .inr ⟨failure, _, rfl, hbefore, (List.append_assoc _ _ _).symm⟩⟩
  | ok =>
    simp only [ends_bind, ends_enter, Program.pure_eq, ends_done] at hrest
    obtain ⟨_, _, _, rfl, ⟨rfl, rfl⟩, rfl, rfl⟩ := hrest
    have hfollows := (c.follows_moves .disabling).trans (.behind_still hstill ((c.moveTo .disabling).follows_moves .disabled))
    rw [List.append_nil, Controller.moveTo_moveTo _ _ (by decide)]
    refine ⟨hfollows, .inl ⟨rfl, ?_⟩⟩
    rw [← List.append_assoc]
    exact hbefore.append (Controller.neverEnters_moves _ _ (by decide))

end PenRail.Rail
