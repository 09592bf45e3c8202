import PenRail.Process
import PenRail.Proofs.History

/-!
# Histories through a layer

A layer answers each request of a program by a program of its own. So the history below a layer is one stretch for each
exchange above it, in order: `ends_under` says so, and `ends_underState` of a layer that remembers something. What the
stretches are is a matter of the layer alone.

The other lemmas take the finite parts of a process apart that was put together from parts.
-/

namespace PenRail

namespace Program

variable {I J : Interface} {S α β : Type}

/-- What only turns the result into another one exchanges nothing. -/
theorem ends_map {p : Program I α} {f : α → β} {h : History I} {b : β} :
    (f <$> p).Ends h b ↔ ∃ a, b = f a ∧ p.Ends h a := by
  rw [map_eq_pure_bind, ends_bind]
  constructor
  · rintro ⟨h₁, a, _, rfl, hp, hend⟩
    obtain ⟨rfl, rfl⟩ := ends_done.1 hend
    rw [List.append_nil]
    exact ⟨a, rfl, hp⟩
  · rintro ⟨a, rfl, hp⟩
    exact ⟨h, a, [], (List.append_nil h).symm, hp, .done _⟩

/-! ## Layers -/

/-- A history above a layer and the one below it: for each exchange above, a stretch in which the layer came to the reply. -/
inductive Unfolds (layer : (q : J.Request) → Program I (J.Reply q)) : History J → History I → Prop
  | nil : Unfolds layer [] []
  | cons {x : Exchange J} {outer : History J} {stretch inner : History I} (answered : (layer x.request).Ends stretch x.reply)
      (rest : Unfolds layer outer inner) : Unfolds layer (x :: outer) (stretch ++ inner)

/-- The same for a layer that remembers something, with what it remembers before and after. -/
inductive UnfoldsFrom (layer : (q : J.Request) → StateT S (Program I) (J.Reply q)) : S → History J → History I → S → Prop
  | nil (s : S) : UnfoldsFrom layer s [] [] s
  | cons {s between after : S} {x : Exchange J} {outer : History J} {stretch inner : History I}
      (answered : ((layer x.request).run s).Ends stretch (x.reply, between))
      (rest : UnfoldsFrom layer between outer inner after) : UnfoldsFrom layer s (x :: outer) (stretch ++ inner) after

theorem ends_under {layer : (q : J.Request) → Program I (J.Reply q)} {p : Program J α} {h : History I} {a : α}
    (he : (p.under layer).Ends h a) : ∃ outer, p.Ends outer a ∧ Unfolds layer outer h := by
  induction p generalizing h with
  | done b =>
    obtain ⟨rfl, rfl⟩ := ends_done.1 he
    exact ⟨[], .done a, .nil⟩
  | ask q next ih =>
    obtain ⟨stretch, r, inner, rfl, hlayer, hrest⟩ := ends_bind.1 he
    obtain ⟨outer, hends, hunfolds⟩ := ih r hrest
    exact ⟨⟨q, r⟩ :: outer, .ask hends, .cons hlayer hunfolds⟩

theorem ends_underState {layer : (q : J.Request) → StateT S (Program I) (J.Reply q)} {p : Program J α} {h : History I}
    {s s' : S} {a : α} (he : ((p.under layer).run s).Ends h (a, s')) :
    ∃ outer, p.Ends outer a ∧ UnfoldsFrom layer s outer h s' := by
  induction p generalizing h s with
  | done b =>
    obtain ⟨rfl, hpair⟩ := ends_done.1 he
    obtain ⟨rfl, rfl⟩ := Prod.mk.inj hpair
    exact ⟨[], .done a, .nil s'⟩
  | ask q next ih =>
    obtain ⟨stretch, ⟨r, between⟩, inner, rfl, hlayer, hrest⟩ := ends_bind.1 he
    obtain ⟨outer, hends, hunfolds⟩ := ih r hrest
    exact ⟨⟨q, r⟩ :: outer, .ask hends, .cons hlayer hunfolds⟩

section
variable {layer : (q : J.Request) → StateT S (Program I) (J.Reply q)} {s after : S} {inner : History I}

theorem unfoldsFrom_nil : UnfoldsFrom layer s [] inner after ↔ inner = [] ∧ after = s := by
  constructor
  · rintro ⟨⟩
    exact ⟨rfl, rfl⟩
  · rintro ⟨rfl, rfl⟩
    exact .nil after

theorem unfoldsFrom_cons {x : Exchange J} {outer : History J} :
    UnfoldsFrom layer s (x :: outer) inner after ↔
      ∃ stretch between rest, inner = stretch ++ rest ∧ ((layer x.request).run s).Ends stretch (x.reply, between) ∧
        UnfoldsFrom layer between outer rest after := by
  constructor
  · rintro (_ | ⟨answered, rest⟩)
    exact ⟨_, _, _, rfl, answered, rest⟩
  · rintro ⟨stretch, between, rest, rfl, answered, hrest⟩
    exact .cons answered hrest

end

theorem Unfolds.append {layer : (q : J.Request) → Program I (J.Reply q)} {outer later : History J} {inner rest : History I}
    (hu : Unfolds layer outer inner) (hlater : Unfolds layer later rest) : Unfolds layer (outer ++ later) (inner ++ rest) := by
  induction hu with
  | nil => exact hlater
  | cons answered _ ih =>
    rw [List.append_assoc]
    exact .cons answered ih

/-- Each exchange above has its stretch. -/
theorem Unfolds.of_mem {layer : (q : J.Request) → Program I (J.Reply q)} {outer : History J} {inner : History I}
    (hu : Unfolds layer outer inner) {x : Exchange J} (hx : x ∈ outer) :
    ∃ stretch, (layer x.request).Ends stretch x.reply := by
  induction hu with
  | nil => cases hx
  | cons answered _ ih =>
    rcases List.mem_cons.1 hx with rfl | hx
    · exact ⟨_, answered⟩
    · exact ih hx

end Program

/-! ## Processes -/

/-- What a process that is over came to. -/
def Turn.result? {σ α : Type} : Turn σ α → Option α
  | .again _ => none
  | .over a => some a

namespace Process

variable {I : Interface} {α β : Type}

theorem rounds_over (p : Process I α) (n : Nat) (a : α) : p.rounds n (.over a) = pure (.over a) := by
  induction n with
  | zero => rfl
  | succ n ih => exact ih

/-- What is over stays so, and exchanges nothing more. -/
theorem ends_rounds_over {p : Process I α} {n : Nat} {a : α} {h : History I} {t : Turn p.State α}
    (he : (p.rounds n (.over a)).Ends h t) : h = [] ∧ t = .over a := by
  rw [rounds_over] at he
  exact Program.ends_done.1 he

theorem unroll_once (p : Program I α) (n : Nat) : (once p).unroll n = .over <$> p := by
  rw [unroll, once, map_eq_pure_bind, bind_assoc]
  congr 1
  funext a
  exact rounds_over _ n a

theorem rounds_after (before : Program I Unit) (p : Process I α) (n : Nat) (t : Turn p.State α) :
    (p.after before).rounds n t = p.rounds n t := by
  induction n generalizing t with
  | zero => rfl
  | succ n ih =>
    rcases t with s | a
    · exact congrArg (p.round s >>= ·) (funext ih)
    · exact ih (.over a)

theorem unroll_after (before : Program I Unit) (p : Process I α) (n : Nat) :
    (p.after before).unroll n = before >>= fun _ => p.unroll n := by
  have hstart : (p.after before).unroll n = (before >>= fun _ => p.start) >>= p.rounds n :=
    congrArg ((before >>= fun _ => p.start) >>= ·) (funext (rounds_after before p n))
  exact hstart.trans (bind_assoc before (fun _ => p.start) (p.rounds n))

/-- Whether a turn is closed before the rounds to come or after them makes no difference. -/
theorem closing_rounds (p : Process I α) (f : α → Program I β) (n : Nat) (t : Turn p.State α) :
    closing f t >>= (p.followedBy f).rounds n = p.rounds n t >>= closing f := by
  induction n generalizing t with
  | zero => exact Program.bind_done (closing f t)
  | succ n ih =>
    rcases t with s | a
    · have hround : (p.round s >>= closing f) >>= (p.followedBy f).rounds n = p.round s >>= fun t => p.rounds n t >>= closing f :=
        (Program.bind_assoc' (p.round s) (closing f) _).trans (congrArg (p.round s >>= ·) (funext ih))
      exact hround.trans (bind_assoc (p.round s) (p.rounds n) (closing f)).symm
    · have hover (b : β) : (p.followedBy f).rounds (n + 1) (.over b) = pure (.over b) := rounds_over _ _ b
      simp only [closing, rounds_over, map_eq_pure_bind, pure_bind]
      exact (Program.bind_assoc' (f a) _ _).trans (congrArg (f a >>= ·) (funext hover))

theorem unroll_followedBy (p : Process I α) (f : α → Program I β) (n : Nat) :
    (p.followedBy f).unroll n = p.unroll n >>= closing f := by
  have hstart : (p.followedBy f).unroll n = p.start >>= fun t => p.rounds n t >>= closing f :=
    (Program.bind_assoc' p.start (closing f) _).trans (congrArg (p.start >>= ·) (funext (closing_rounds p f n)))
  exact hstart.trans (bind_assoc p.start (p.rounds n) (closing f)).symm

end Process

end PenRail
