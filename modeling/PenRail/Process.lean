import PenRail.Program

/-!
# Programs that may not end

A command that serves a device goes round for as long as the device lets it. A `Process` is such a command as data: a
program that starts it, and one for each round, which is finite and says whether there is another. Every finite part of
a run is one of `p.unroll n`, so what holds of all of them holds at every point of a run.

`unroll_succ` says a longer part is a shorter one and a round, `unroll_under` that answering a process and answering its
parts are the same.
-/

namespace PenRail

/-- How a round ends. -/
inductive Turn (σ α : Type) : Type where
  | again (s : σ)
  | over (a : α)

structure Process (I : Interface) (α : Type) where
  State : Type
  start : Program I (Turn State α)
  round : State → Program I (Turn State α)

namespace Process

variable {I J : Interface} {α β : Type}

/-- One more round, if there is one. -/
def next (p : Process I α) : Turn p.State α → Program I (Turn p.State α)
  | .again s => p.round s
  | .over a => pure (.over a)

/-- Up to `n` rounds. -/
def rounds (p : Process I α) : (n : Nat) → Turn p.State α → Program I (Turn p.State α)
  | 0, t => pure t
  | n + 1, t => p.next t >>= p.rounds n

/-- The start and up to `n` rounds. -/
def unroll (p : Process I α) (n : Nat) : Program I (Turn p.State α) :=
  p.start >>= p.rounds n

/-- A process without rounds. -/
def once (p : Program I α) : Process I α where
  State := Empty
  start := .over <$> p
  round := nofun

/-- Does something else first. -/
def after (before : Program I Unit) (p : Process I α) : Process I α where
  State := p.State
  start := before >>= fun _ => p.start
  round := p.round

/-- What follows when a process is over. -/
def closing (f : α → Program I β) {σ : Type} : Turn σ α → Program I (Turn σ β)
  | .again s => pure (.again s)
  | .over a => .over <$> f a

/-- Does something more when the process is over. -/
def followedBy (p : Process I α) (f : α → Program I β) : Process I β where
  State := p.State
  start := p.start >>= closing f
  round s := p.round s >>= closing f

/-- A process over another interface: each request is answered by running what `layer` makes of it. -/
def under (layer : (q : I.Request) → Program J (I.Reply q)) (p : Process I α) : Process J α where
  State := p.State
  start := p.start.under layer
  round s := (p.round s).under layer

theorem unroll_zero (p : Process I α) : p.unroll 0 = p.start := by
  simp [unroll, rounds, Program.bind_done]

theorem rounds_succ (p : Process I α) (n : Nat) (t : Turn p.State α) :
    p.rounds (n + 1) t = p.rounds n t >>= p.next := by
  induction n generalizing t with
  | zero => simp [rounds, Program.bind_done]
  | succ n ih => rw [rounds, rounds, bind_assoc, funext ih]

theorem unroll_succ (p : Process I α) (n : Nat) : p.unroll (n + 1) = p.unroll n >>= p.next := by
  rw [unroll, unroll, bind_assoc]
  congr 1
  funext t
  exact p.rounds_succ n t

theorem unroll_under (layer : (q : I.Request) → Program J (I.Reply q)) (p : Process I α) (n : Nat) :
    (p.under layer).unroll n = (p.unroll n).under layer := by
  induction n with
  | zero => simp only [unroll_zero, under]
  | succ n ih =>
    rw [unroll_succ, unroll_succ, ih, Program.under_bind]
    congr 1
    funext t
    cases t <;> rfl

end Process

end PenRail
