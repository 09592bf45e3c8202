import PenRail.Proofs.Course
import PenRail.Proofs.Rail.Phases

/-!
# Sessions of a controller

A session is a course of operations on a controller: they are called one after the other, with each call kept as it went.
`Call.Possible.cases` says what one call can be, and `play_calls` that a session of a fresh controller is the controller's own
way to carry out a list of operations.
-/

namespace PenRail.Rail

open Program (ends_bind ends_done Only)

variable {σ : Type}

/-- An operation as it was called on a controller and as it ended. -/
abbrev Call := Called interface Controller Method (Result Answer)

/-- Operations called on a controller, each kept as it went. -/
abbrev Session (σ : Type) := Course interface Controller Method (Result Answer) σ

namespace Session

variable (answer : Answerer interface σ)

theorem play_calls_after (methods : List Method) (s : Session σ) :
    let r := (s.view.calls methods).play answer s.state
    let later := s.after Controller.call answer methods
    later.calls.map Called.result = s.calls.map Called.result ++ r.result.1 ∧
      later.exchanged = s.exchanged ++ r.history ∧
      later.view = r.result.2 ∧ later.state = r.state := by
  induction methods generalizing s with
  | nil => simp [Controller.calls, Course.after]
  | cons m rest ih =>
    have hrest := ih (s.next Controller.call answer m)
    simp only [Controller.calls, Program.play_bind, Course.next_calls, Course.exchanged_next, List.map_append,
      List.append_assoc] at hrest ⊢
    simpa [Course.after, Course.next, Course.made] using hrest

/-- A session is the controller's list of operations carried out, with each call kept. -/
theorem play_calls (methods : List Method) (start : σ) :
    let s : Session σ := Course.run Controller.call answer methods {} start
    (({} : Controller).calls methods).play answer start =
      ⟨(s.calls.map Called.result, s.view), s.state, s.exchanged⟩ := by
  intro s
  obtain ⟨hresults, hhistory, hview, hstate⟩ := play_calls_after answer methods { view := {}, state := start }
  rw [show s = Course.after Controller.call answer { view := {}, state := start } methods from rfl, hresults, hhistory, hview,
    hstate]
  rfl

/-! ## What a call has from the part it is made of -/

theorem made_keep {α : Type} (s : Session σ) {m : Method} {f : α → Answer} {p : Program interface (Result α)}
    (hm : s.view.call m = s.view.keep f p) :
    (s.made Controller.call answer m).result = (p.play answer s.state).result.map f ∧
      (s.made Controller.call answer m).history = (p.play answer s.state).history ∧
      (s.next Controller.call answer m).state = (p.play answer s.state).state := by
  simp only [Course.made, Course.next, hm, Controller.keep, Program.play_bind, Program.pure_eq, Program.play_done]
  exact ⟨rfl, List.append_nil _, rfl⟩

theorem made_change {α : Type} (s : Session σ) {m : Method} {f : α → Answer} {p : Program interface (Outcome α)}
    (hm : s.view.call m = Controller.change f p) :
    (s.made Controller.call answer m).result = (p.play answer s.state).result.1.map f ∧
      (s.next Controller.call answer m).view = (p.play answer s.state).result.2 ∧
      (s.next Controller.call answer m).state = (p.play answer s.state).state := by
  simp only [Course.made, Course.next, hm, Controller.change, Program.play_bind, Program.pure_eq, Program.play_done]
  exact ⟨rfl, rfl, rfl⟩

end Session

theorem map_eq_error {α β : Type} {f : α → β} {r : Result α} {e : Error} : r.map f = .error e ↔ r = .error e := by
  cases r <;> simp [Except.map]

/-! ## Which operations touch the phase -/

theorem ends_keep {α : Type} {c : Controller} {f : α → Answer} {p : Program interface (Result α)} {h : History interface}
    {o : Outcome Answer} : (c.keep f p).Ends h o ↔ ∃ r, p.Ends h r ∧ o = (r.map f, c) := by
  simp only [Controller.keep, ends_bind, Program.pure_eq, ends_done]
  constructor
  · rintro ⟨h₁, r, _, rfl, hp, rfl, rfl⟩
    exact ⟨r, by rwa [List.append_nil], rfl⟩
  · rintro ⟨r, hp, rfl⟩
    exact ⟨h, r, [], (List.append_nil h).symm, hp, rfl, rfl⟩

theorem ends_change {α : Type} {f : α → Answer} {p : Program interface (Outcome α)} {h : History interface}
    {o : Outcome Answer} : (Controller.change f p).Ends h o ↔ ∃ r, p.Ends h r ∧ o = (r.1.map f, r.2) := by
  simp only [Controller.change, ends_bind, Program.pure_eq, ends_done]
  constructor
  · rintro ⟨h₁, r, _, rfl, hp, rfl, rfl⟩
    exact ⟨r, by rwa [List.append_nil], rfl⟩
  · rintro ⟨r, hp, rfl⟩
    exact ⟨h, r, [], (List.append_nil h).symm, hp, rfl, rfl⟩

/-- Waiting for power good changes no phase either. -/
theorem still_waitPowerGood {h : History interface} {r : Result Bool} (he : waitPowerGood.Ends h r) : Still h := by
  obtain ⟨looks, polled, _, rfl, hpoll, hrest⟩ := ends_bind.1 he
  refine (ends_pollFrom hpoll).1.append ?_
  rcases polled with reason | seen
  · obtain ⟨rfl, rfl⟩ := ends_done.1 hrest
    exact still_nil
  · obtain ⟨rfl, rfl⟩ := ends_done.1 hrest
    exact still_nil

/-- What the controller has read of the chip's faults is the only thing in its view that reading the status changes. -/
theorem ends_readStatus {c : Controller} {h : History interface} {o : Outcome Status} (he : c.readStatus.Ends h o) :
    ∃ fault, o.2 = { c with lastFault := fault } := by
  obtain ⟨h₁, read, h₂, rfl, hread, hrest⟩ := ends_bind.1 he
  rcases read with e | flags
  · obtain ⟨rfl, rfl⟩ := ends_done.1 hrest
    exact ⟨c.lastFault, rfl⟩
  · dsimp only at hrest
    split at hrest
    · obtain ⟨rfl, rfl⟩ := ends_done.1 hrest
      exact ⟨c.lastFault, rfl⟩
    · obtain ⟨rfl, rfl⟩ := ends_done.1 hrest
      exact ⟨_, rfl⟩

/-- An operation that does not switch the rail keeps all of the view but the last fault. -/
theorem ends_call_view {c : Controller} {m : Method} (hm : m.switches = false) {h : History interface} {o : Outcome Answer}
    (he : (c.call m).Ends h o) : ∃ fault, o.2 = { c with lastFault := fault } := by
  cases m with
  | enable | disable => cases hm
  | readStatus =>
    obtain ⟨r, hr, rfl⟩ := ends_change.1 he
    exact ends_readStatus hr
  | faultState =>
    obtain ⟨r, hr, rfl⟩ := ends_change.1 he
    obtain ⟨h₁, status, h₂, rfl, hstatus, hrest⟩ := ends_bind.1 hr
    obtain ⟨rfl, rfl⟩ := ends_done.1 hrest
    exact ends_readStatus hstatus
  | _ =>
    obtain ⟨r, -, rfl⟩ := ends_keep.1 he
    exact ⟨c.lastFault, rfl⟩

/-- An operation that does not switch the rail goes through no phase. -/
theorem still_call {c : Controller} {m : Method} (hm : m.switches = false) {h : History interface} {o : Outcome Answer}
    (he : (c.call m).Ends h o) : Still h := by
  by_cases hwait : m = .waitPowerGood
  · subst hwait
    obtain ⟨r, hr, -⟩ := ends_keep.1 he
    exact still_waitPowerGood hr
  · exact still_of_only (only_call_of_not_switches c hm hwait) he

/-! ## How a call goes -/

/-- The call went as the operation can go. -/
def Call.Possible (k : Call) : Prop :=
  (k.before.call k.operation).Ends k.history (k.result, k.after)

theorem Session.possible_made (answer : Answerer interface σ) (s : Session σ) (m : Method) :
    Call.Possible (s.made Controller.call answer m) :=
  s.ends_made Controller.call answer m

/-- Every call of a session went as its operation can go. -/
theorem Session.possible_run (answer : Answerer interface σ) (methods : List Method) (start : σ) :
    ∀ k ∈ (Course.run Controller.call answer methods {} start).calls, Call.Possible k :=
  Course.forall_calls_run Controller.call answer Call.Possible (Session.possible_made answer) methods {} start

/-- A call leaves the phase alone, or it is a switch-on or a switch-off and goes as these do. -/
theorem Call.Possible.cases {k : Call} (hk : k.Possible) :
    (k.operation.switches = false ∧ Still k.history ∧ ∃ fault, k.after = { k.before with lastFault := fault }) ∨
      (k.operation = .enable ∧ ∃ r, k.before.enable.Ends k.history (r, k.after) ∧ k.result = r.map fun _ => .unit) ∨
      (k.operation = .disable ∧ ∃ r, k.before.disable.Ends k.history (r, k.after) ∧ k.result = r.map fun _ => .unit) := by
  obtain ⟨c, m, r, c', h⟩ := k
  change (c.call m).Ends h (r, c') at hk
  cases hm : m.switches with
  | false => exact .inl ⟨rfl, still_call hm hk, ends_call_view hm hk⟩
  | true =>
    rcases Method.eq_of_switches hm with rfl | rfl
    · obtain ⟨o, ho, heq⟩ := ends_change.1 hk
      obtain ⟨rfl, rfl⟩ := Prod.mk.inj heq
      exact .inr (.inl ⟨rfl, o.1, ho, rfl⟩)
    · obtain ⟨o, ho, heq⟩ := ends_change.1 hk
      obtain ⟨rfl, rfl⟩ := Prod.mk.inj heq
      exact .inr (.inr ⟨rfl, o.1, ho, rfl⟩)

end PenRail.Rail
