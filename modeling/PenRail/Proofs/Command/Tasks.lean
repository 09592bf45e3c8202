import PenRail.Command.Task
import PenRail.Proofs.Binding
import PenRail.Proofs.Layers
import PenRail.Proofs.Terms

/-!
# Parts of a command

A task stops at its first failure. So a history of two tasks is one of the first alone, which failed, or of both, one behind
the other; and a task keeps to terms if each of its parts does, given what the parts before it came to. `Reaches` says what a
task comes to: something good, or a failure that can be put up with.
-/

namespace PenRail.Command

open Program (ends_bind ends_done ends_request)

variable {α β ε : Type} {h : History interface}

theorem ends_host {q : Host.Request} {r : q.Reply} : (host q).Ends h r ↔ h = [⟨.host q, r⟩] :=
  ends_request

theorem ends_say {level : Log.Level} {text : String} {u : Unit} :
    (say level text).Ends h u ↔ h = [⟨.log ⟨level, text⟩, ()⟩] :=
  ends_request

/-- One use of the machine, which brings the answer as the device behind the address receives it. -/
theorem ends_transfer {place : Place} {t : Bus.Transfer} {r : Except Bus.Failure t.Reply} (he : (place.transfer t).Ends h r) :
    ∃ raw, h = [⟨.host (.transfer place.path ⟨place.address, t⟩), raw⟩] ∧ r = t.received raw := by
  obtain ⟨_, raw, _, rfl, hasked, hend⟩ := ends_bind.1 he
  obtain rfl := ends_host.1 hasked
  rcases raw with cause | reply
  · obtain ⟨rfl, rfl⟩ := ends_done.1 hend
    exact ⟨.error cause, rfl, rfl⟩
  · obtain ⟨rfl, rfl⟩ := ends_done.1 hend
    exact ⟨.ok reply, rfl, rfl⟩

namespace Task

/-! ## How a task ends -/

theorem ends_pure {a : α} {r : Except Failure α} (he : (pure a : Task α).run.Ends h r) : h = [] ∧ r = .ok a :=
  ends_done.1 he

/-- The first of two tasks fails, or both are carried out. -/
theorem ends_bind {t : Task β} {f : β → Task α} {r : Except Failure α} (he : (t >>= f).run.Ends h r) :
    (∃ failure, r = .error failure ∧ t.run.Ends h (.error failure)) ∨
      ∃ h₁ b h₂, h = h₁ ++ h₂ ∧ t.run.Ends h₁ (.ok b) ∧ (f b).run.Ends h₂ r := by
  obtain ⟨h₁, outcome, h₂, rfl, ht, hrest⟩ := Program.ends_bind.1 he
  rcases outcome with failure | b
  · obtain ⟨rfl, rfl⟩ := ends_done.1 hrest
    rw [List.append_nil]
    exact .inl ⟨failure, rfl, ht⟩
  · exact .inr ⟨h₁, b, h₂, rfl, ht, hrest⟩

/-- What cannot fail, as a task. -/
theorem ends_lift {p : Program interface α} {r : Except Failure α} (he : (liftM p : Task α).run.Ends h r) :
    ∃ a, r = .ok a ∧ p.Ends h a :=
  Program.ends_map.1 he

/-- What cannot fail, and another task after it. -/
theorem ends_lift_bind {p : Program interface β} {f : β → Task α} {r : Except Failure α}
    (he : (liftM p >>= f : Task α).run.Ends h r) : ∃ h₁ b h₂, h = h₁ ++ h₂ ∧ p.Ends h₁ b ∧ (f b).run.Ends h₂ r := by
  rcases ends_bind he with ⟨failure, -, hlift⟩ | ⟨h₁, b, h₂, rfl, hlift, hrest⟩
  · obtain ⟨_, hok, -⟩ := ends_lift hlift
    cases hok
  · obtain ⟨_, hok, hp⟩ := ends_lift hlift
    obtain rfl := Except.ok.inj hok
    exact ⟨h₁, b, h₂, rfl, hp, hrest⟩

/-- What may fail, as a task. -/
theorem ends_attempt {failure : ε → Failure} {p : Program interface (Except ε α)} {r : Except Failure α}
    (he : (attempt failure p).run.Ends h r) : ∃ outcome, r = outcome.mapError failure ∧ p.Ends h outcome :=
  Program.ends_map.1 he

/-- What may fail, and another task after it. -/
theorem ends_attempt_bind {failure : ε → Failure} {p : Program interface (Except ε β)} {f : β → Task α}
    {r : Except Failure α} (he : (attempt failure p >>= f).run.Ends h r) :
    (∃ e, r = .error (failure e) ∧ p.Ends h (.error e)) ∨
      ∃ h₁ b h₂, h = h₁ ++ h₂ ∧ p.Ends h₁ (.ok b) ∧ (f b).run.Ends h₂ r := by
  rcases ends_bind he with ⟨failed, rfl, hattempt⟩ | ⟨h₁, b, h₂, rfl, hattempt, hrest⟩
  · obtain ⟨outcome, houtcome, hp⟩ := ends_attempt hattempt
    rcases outcome with e | b
    · obtain rfl := Except.error.inj houtcome
      exact .inl ⟨e, rfl, hp⟩
    · cases houtcome
  · obtain ⟨outcome, houtcome, hp⟩ := ends_attempt hattempt
    rcases outcome with e | b
    · cases houtcome
    · obtain rfl := Except.ok.inj houtcome
      exact .inr ⟨h₁, _, h₂, rfl, hp, hrest⟩

/-! ## Tasks on terms -/

/-- Comes to something good, or fails in a way that can be put up with. -/
def Reaches (tolerable : Failure → Prop) (good : α → Prop) : Except Failure α → Prop
  | .ok a => good a
  | .error failure => tolerable failure

variable {terms : Terms interface} {tolerable : Failure → Prop} {good : α → Prop}

theorem meets_pure {a : α} (ha : good a) : (pure a : Task α).run.Meets terms (Reaches tolerable good) :=
  ha

theorem meets_bind {t : Task β} {f : β → Task α} {between : β → Prop} (ht : t.run.Meets terms (Reaches tolerable between))
    (hf : ∀ b, between b → (f b).run.Meets terms (Reaches tolerable good)) :
    (t >>= f).run.Meets terms (Reaches tolerable good) := by
  refine Program.Meets.bind ht fun outcome houtcome => ?_
  rcases outcome with failure | b
  · exact houtcome
  · exact hf b houtcome

theorem meets_lift {p : Program interface α} (hp : p.Meets terms good) :
    (liftM p : Task α).run.Meets terms (Reaches tolerable good) :=
  hp.bind fun _ ha => ha

theorem meets_attempt {failure : ε → Failure} {p : Program interface (Except ε α)} {between : Except ε α → Prop}
    (hp : p.Meets terms between) (hok : ∀ a, between (.ok a) → good a) (herror : ∀ e, between (.error e) → tolerable (failure e)) :
    (attempt failure p).run.Meets terms (Reaches tolerable good) := by
  refine hp.bind fun outcome houtcome => ?_
  rcases outcome with e | a
  · exact herror e houtcome
  · exact hok a houtcome

end Task

end PenRail.Command
