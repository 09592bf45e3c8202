import PenRail.Program

/-!
# What was exchanged

`Program.play` runs a program against whoever answers its requests and keeps the history: every request in order, each
with the answer that was given. Whoever answers is any function with a state of its own, so a statement about all of them
ranges over all devices and all their failures.

`under_eq_play` says the history is an observation only. `Ends` are the histories a program can have with any answers at
all: `ends_play` says every run has one of them, `ends_bind` cuts one where a part of the program ends, and `Only.ends`
says that it holds no request but those the program can make.
-/

namespace PenRail

/-- A request as it was made, and its answer. -/
structure Exchange (I : Interface) where
  request : I.Request
  reply : I.Reply request

/-- All that was exchanged, oldest first. -/
abbrev History (I : Interface) := List (Exchange I)

/-- Who answers requests: with a reply, and as someone who may have changed. -/
abbrev Answerer (I : Interface) (σ : Type) := (q : I.Request) → StateM σ (I.Reply q)

/-- How a program went. -/
structure Played (I : Interface) (σ α : Type) where
  result : α
  /-- Whoever answered, afterwards. -/
  state : σ
  history : History I

/-- The same with something before it. -/
def Played.behind {I : Interface} {σ α : Type} (r : Played I σ α) (earlier : History I) : Played I σ α :=
  { r with history := earlier ++ r.history }

section
variable {I : Interface} {σ α : Type} (r : Played I σ α) (h : History I)

@[simp] theorem Played.behind_result : (r.behind h).result = r.result := rfl

@[simp] theorem Played.behind_state : (r.behind h).state = r.state := rfl

@[simp] theorem Played.behind_history : (r.behind h).history = h ++ r.history := rfl

end

namespace Program

variable {I : Interface} {σ α β : Type} (answer : Answerer I σ)

/-- Runs a program and keeps what was exchanged. -/
def play : Program I α → σ → Played I σ α
  | .done a, s => ⟨a, s, []⟩
  | .ask q next, s => ((next (answer q s).1).play (answer q s).2).behind [⟨q, (answer q s).1⟩]

@[simp] theorem play_done (a : α) (s : σ) : (Program.done a : Program I α).play answer s = ⟨a, s, []⟩ := rfl

@[simp] theorem play_ask (q : I.Request) (next : I.Reply q → Program I α) (s : σ) :
    (Program.ask q next).play answer s =
      ((next (answer q s).1).play answer (answer q s).2).behind [⟨q, (answer q s).1⟩] := rfl

@[simp] theorem play_request (q : I.Request) (s : σ) :
    (request q).play answer s = ⟨(answer q s).1, (answer q s).2, [⟨q, (answer q s).1⟩]⟩ := rfl

/-- The second part goes on with what the first one left, and its history comes behind. -/
theorem play_bind (p : Program I α) (f : α → Program I β) (s : σ) :
    (p >>= f).play answer s =
      ((f (p.play answer s).result).play answer (p.play answer s).state).behind (p.play answer s).history := by
  induction p generalizing s with
  | done a => rfl
  | ask q next ih =>
    rw [ask_bind, play_ask, ih, play_ask]
    simp only [Played.behind_result, Played.behind_state]
    simp only [Played.behind, List.append_assoc]

/-- Whoever was asked nothing is as before. -/
theorem play_state_of_history_nil {p : Program I α} {s : σ} (h : (p.play answer s).history = []) :
    (p.play answer s).state = s := by
  cases p with
  | done a => rfl
  | ask q next => simp [Played.behind] at h

/-- A run without its history is the run: what is exchanged is only looked at. -/
theorem under_eq_play (p : Program I α) (s : σ) :
    p.under answer s = ((p.play answer s).result, (p.play answer s).state) := by
  induction p generalizing s with
  | done a => rfl
  | ask q next ih => exact ih (answer q s).1 (answer q s).2

/-- Answered as in the history, the program ends with the result. Any answers at all may stand in the history. -/
inductive Ends : Program I α → History I → α → Prop
  | done (a : α) : Ends (.done a) [] a
  | ask {q : I.Request} {next : I.Reply q → Program I α} {r : I.Reply q} {h : History I} {a : α} :
      Ends (next r) h a → Ends (.ask q next) (⟨q, r⟩ :: h) a

theorem ends_play (p : Program I α) (s : σ) : p.Ends (p.play answer s).history (p.play answer s).result := by
  induction p generalizing s with
  | done a => exact .done a
  | ask q next ih => exact .ask (ih _ _)

@[simp] theorem ends_done {a b : α} {h : History I} : (Program.done a : Program I α).Ends h b ↔ h = [] ∧ b = a := by
  constructor
  · rintro ⟨⟩
    exact ⟨rfl, rfl⟩
  · rintro ⟨rfl, rfl⟩
    exact .done b

theorem ends_ask {q : I.Request} {next : I.Reply q → Program I α} {h : History I} {a : α} :
    (Program.ask q next).Ends h a ↔ ∃ r later, h = ⟨q, r⟩ :: later ∧ (next r).Ends later a := by
  constructor
  · rintro (_ | ⟨hr⟩)
    exact ⟨_, _, rfl, hr⟩
  · rintro ⟨r, later, rfl, hr⟩
    exact .ask hr

theorem ends_request {q : I.Request} {h : History I} {r : I.Reply q} : (request q).Ends h r ↔ h = [⟨q, r⟩] := by
  simp only [request, ends_ask, ends_done]
  constructor
  · rintro ⟨r, later, rfl, rfl, rfl⟩
    rfl
  · rintro rfl
    exact ⟨r, [], rfl, rfl, rfl⟩

/-- The history of two parts is cut where the first one ends. -/
theorem ends_bind {p : Program I α} {f : α → Program I β} {h : History I} {b : β} :
    (p >>= f).Ends h b ↔ ∃ h₁ a h₂, h = h₁ ++ h₂ ∧ p.Ends h₁ a ∧ (f a).Ends h₂ b := by
  induction p generalizing h with
  | done a =>
    simp only [done_bind, ends_done]
    constructor
    · intro hf
      exact ⟨[], a, h, rfl, ⟨rfl, rfl⟩, hf⟩
    · rintro ⟨_, _, h₂, rfl, ⟨rfl, rfl⟩, hf⟩
      exact hf
  | ask q next ih =>
    simp only [ask_bind, ends_ask, ih]
    constructor
    · rintro ⟨r, _, rfl, h₁, a, h₂, rfl, hp, hf⟩
      exact ⟨⟨q, r⟩ :: h₁, a, h₂, rfl, ⟨r, h₁, rfl, hp⟩, hf⟩
    · rintro ⟨_, a, h₂, rfl, ⟨r, h₁, rfl, hp⟩, hf⟩
      exact ⟨r, h₁ ++ h₂, rfl, h₁, a, h₂, rfl, hp, hf⟩

/-- Whatever it is answered, the program makes no request but those of `P`. -/
def Only (P : I.Request → Prop) : Program I α → Prop
  | .done _ => True
  | .ask q next => P q ∧ ∀ r, (next r).Only P

variable {P Q : I.Request → Prop}

theorem Only.bind {p : Program I α} {f : α → Program I β} (hp : p.Only P) (hf : ∀ a, (f a).Only P) :
    (p >>= f).Only P := by
  induction p with
  | done a => exact hf a
  | ask q next ih => exact ⟨hp.1, fun r => ih r (hp.2 r)⟩

theorem Only.mono {p : Program I α} (hp : p.Only P) (h : ∀ q, P q → Q q) : p.Only Q := by
  induction p with
  | done a => trivial
  | ask q next ih => exact ⟨h q hp.1, fun r => ih r (hp.2 r)⟩

/-- The history holds no request but those the program can make. -/
theorem Only.ends {p : Program I α} (hp : p.Only P) {h : History I} {a : α} (he : p.Ends h a) :
    ∀ x ∈ h, P x.request := by
  induction he with
  | done a => simp
  | ask _ ih =>
    intro x hx
    rcases List.mem_cons.1 hx with rfl | hx
    · exact hp.1
    · exact ih (hp.2 _) x hx

end Program

end PenRail
