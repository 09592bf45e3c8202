/-!
# Programs over an interface

A driver never holds a device: it asks for one thing at a time and goes on with the answer it is given. `Program I α` is
that conversation as data, every possible answer kept. What the answers are is settled elsewhere, by whoever answers
(`Program.under`): a scripted chip, an addressed bus, another program one layer down. So a statement about a driver can
range over every device there is.

`under_bind` says answering goes through sequencing, `under_under` that two layers of answering are one.
-/

namespace PenRail

/-- What can be asked for, and what each request is answered with. -/
structure Interface where
  Request : Type
  Reply : Request → Type

/-- A finite conversation that ends with an `α`. -/
inductive Program (I : Interface) (α : Type) : Type where
  | done (a : α)
  | ask (q : I.Request) (next : I.Reply q → Program I α)

namespace Program

variable {I J : Interface} {α β : Type}

/-- Goes on with `f` once `p` has ended. -/
def bind : Program I α → (α → Program I β) → Program I β
  | .done a, f => f a
  | .ask q next, f => .ask q fun r => (next r).bind f

instance : Monad (Program I) where
  pure := .done
  bind := bind

/-- Asks once and ends with the answer. -/
def request (q : I.Request) : Program I (I.Reply q) :=
  .ask q .done

@[simp] theorem pure_eq (a : α) : (pure a : Program I α) = .done a := rfl

@[simp] theorem done_bind (a : α) (f : α → Program I β) : (Program.done a : Program I α) >>= f = f a := rfl

@[simp] theorem ask_bind (q : I.Request) (next : I.Reply q → Program I α) (f : α → Program I β) :
    Program.ask q next >>= f = .ask q fun r => next r >>= f := rfl

@[simp] theorem request_bind (q : I.Request) (f : I.Reply q → Program I β) : request q >>= f = .ask q f := rfl

theorem bind_done (p : Program I α) : p >>= Program.done = p := by
  induction p with
  | done a => rfl
  | ask q next ih => simp only [ask_bind, ih]

theorem bind_assoc' {γ : Type} (p : Program I α) (f : α → Program I β) (g : β → Program I γ) :
    p >>= f >>= g = p >>= fun a => f a >>= g := by
  induction p with
  | done a => rfl
  | ask q next ih => simp only [ask_bind, ih]

instance : LawfulMonad (Program I) :=
  LawfulMonad.mk' (Program I) bind_done (fun _ _ => rfl) bind_assoc'

/-- Runs a program against whoever answers its requests. -/
def under {m : Type → Type} [Monad m] (answer : (q : I.Request) → m (I.Reply q)) : Program I α → m α
  | .done a => pure a
  | .ask q next => answer q >>= fun r => (next r).under answer

section
variable {m : Type → Type} [Monad m] (answer : (q : I.Request) → m (I.Reply q))

@[simp] theorem under_done (a : α) : (Program.done a : Program I α).under answer = pure a := rfl

@[simp] theorem under_ask (q : I.Request) (next : I.Reply q → Program I α) :
    (Program.ask q next).under answer = answer q >>= fun r => (next r).under answer := rfl

theorem under_request [LawfulMonad m] (q : I.Request) : (request q).under answer = answer q := by
  simp [request]

theorem under_bind [LawfulMonad m] (p : Program I α) (f : α → Program I β) :
    (p >>= f).under answer = p.under answer >>= fun a => (f a).under answer := by
  induction p with
  | done a => simp
  | ask q next ih => simp [ih]

/-- A layer in between can be folded away: each request is answered by running what the layer makes of it. -/
theorem under_under [LawfulMonad m] (layer : (q : J.Request) → Program I (J.Reply q)) (p : Program J α) :
    (p.under layer).under answer = p.under fun q => (layer q).under answer := by
  induction p with
  | done a => rfl
  | ask q next ih => simp only [under_ask, under_bind, ih]

end

end Program

end PenRail
