import PenRail.Proofs.Rail.Acts

/-!
# The phases a history goes through

Each change of the controller's phase is an entry of its log, so the history of an operation shows the phases it goes
through, also those it only passes. `Follows` reads them off: `ends_enter` says the log is complete, and the lemmas on
the parts of the controller say which of them change the phase at all.
-/

namespace PenRail.Rail

/-- What is said about a change of phase. -/
def moveEntry (a b : Phase) : Log.Entry :=
  ⟨.debug, s!"Regulator {a.name} -> {b.name}"⟩

/-- The change from one phase to another, as the history has it. -/
def moved (a b : Phase) : Exchange interface :=
  ⟨.log (moveEntry a b), ()⟩

/-- The line was read and is high. -/
def sawHigh : Exchange interface :=
  ⟨.powerGood, .ok true⟩

def Request.IsMove (q : Request) : Prop :=
  ∃ a b, q = .log (moveEntry a b)

/-- No change of phase is in the history. -/
def Still (h : History interface) : Prop :=
  ∀ x ∈ h, ¬x.request.IsMove

/-- The changes of phase in the history lead from one phase to another, each from where the last one ended. -/
inductive Follows : Phase → History interface → Phase → Prop
  | still {p : Phase} {h : History interface} : Still h → Follows p h p
  | move {a b p : Phase} {before after : History interface} :
      Still before → Follows b after p → Follows a (before ++ moved a b :: after) p

theorem moveEntry_inj {a b a' b' : Phase} (h : moveEntry a b = moveEntry a' b') : a = a' ∧ b = b' := by
  revert h
  cases a <;> cases b <;> cases a' <;> cases b' <;> decide

theorem isMove_moved (a b : Phase) : (moved a b).request.IsMove :=
  ⟨a, b, rfl⟩

theorem Still.append {h₁ h₂ : History interface} (still₁ : Still h₁) (still₂ : Still h₂) : Still (h₁ ++ h₂) := by
  intro x hx
  rcases List.mem_append.1 hx with hx | hx
  · exact still₁ x hx
  · exact still₂ x hx

theorem still_nil : Still [] := by
  simp [Still]

/-- A history of one thing that was said is still if it was no change of phase. -/
theorem still_say {entry : Log.Entry} (h : ∀ a b, entry ≠ moveEntry a b) : Still [⟨.log entry, ()⟩] := by
  intro x hx
  obtain rfl := List.mem_singleton.1 hx
  rintro ⟨a, b, he⟩
  exact h a b (Request.log.inj he)

/-- An error is no change of phase, whatever it says. -/
theorem error_ne_moveEntry (text : String) (a b : Phase) : (⟨.error, text⟩ : Log.Entry) ≠ moveEntry a b := by
  intro h
  cases congrArg Log.Entry.level h

theorem Follows.behind_still {p q : Phase} {h₁ h₂ : History interface} (still : Still h₁) (h : Follows p h₂ q) :
    Follows p (h₁ ++ h₂) q := by
  cases h with
  | still h => exact .still (still.append h)
  | move before after =>
    rw [← List.append_assoc]
    exact .move (still.append before) after

theorem Follows.trans {p q r : Phase} {h₁ h₂ : History interface} (first : Follows p h₁ q) (second : Follows q h₂ r) :
    Follows p (h₁ ++ h₂) r := by
  induction first with
  | still h => exact .behind_still h second
  | move before _ ih =>
    rw [List.append_assoc, List.cons_append]
    exact .move before (ih second)

/-- A change of phase as it is said, if there is one. -/
def Controller.moves (c : Controller) (next : Phase) : History interface :=
  if c.phase = next then [] else [moved c.phase next]

theorem Controller.follows_moves (c : Controller) (next : Phase) : Follows c.phase (c.moves next) next := by
  unfold Controller.moves
  by_cases h : c.phase = next
  · rw [if_pos h, h]
    exact .still still_nil
  · rw [if_neg h]
    exact .move still_nil (.still still_nil)

@[simp] theorem Controller.acts_moves (c : Controller) (next : Phase) : acts (c.moves next) = [] := by
  unfold Controller.moves
  by_cases h : c.phase = next <;> simp [h, acts, isAct, moved]

@[simp] theorem Controller.moveTo_phase (c : Controller) (next : Phase) : (c.moveTo next).phase = next := rfl

@[simp] theorem Controller.moveTo_enabled (c : Controller) (next : Phase) : (c.moveTo next).enabled = next.isOn := rfl

/-- Only a move to a rail that is off forgets something; what a move through any other phase leaves is overwritten. -/
theorem Controller.moveTo_moveTo (c : Controller) {first : Phase} (next : Phase) (h : first ≠ .disabled) :
    (c.moveTo first).moveTo next = c.moveTo next := by
  simp [Controller.moveTo, h]

open Program (ends_bind ends_done ends_request)

theorem ends_say {level : Log.Level} {text : String} {h : History interface} {u : Unit} :
    (say level text).Ends h u ↔ h = [⟨.log ⟨level, text⟩, ()⟩] :=
  ends_request

/-- Entering a phase says so, unless it is the one before. -/
theorem ends_enter {c c' : Controller} {next : Phase} {h : History interface} :
    (c.enter next).Ends h c' ↔ h = c.moves next ∧ c' = c.moveTo next := by
  unfold Controller.enter Controller.moves
  by_cases hp : c.phase = next
  · simp [hp]
  · simp only [hp, ne_eq, not_false_eq_true, if_true, if_false]
    constructor
    · intro he
      obtain ⟨h₁, u, h₂, rfl, hs, hd⟩ := ends_bind.1 he
      obtain rfl := ends_say.1 hs
      obtain ⟨rfl, rfl⟩ := ends_done.1 hd
      exact ⟨rfl, rfl⟩
    · rintro ⟨rfl, rfl⟩
      exact ends_bind.2 ⟨_, (), [], rfl, ends_say.2 rfl, ends_done.2 ⟨rfl, rfl⟩⟩

end PenRail.Rail
