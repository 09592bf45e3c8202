import PenRail.Proofs.History
import PenRail.Proofs.Places

/-!
# What a history says of whoever answers

Some of what whoever answers holds can be seen from outside: it changes with each exchange in a way that the exchange
determines. Then the history of a program says what is held at each of its places: `view_play` after the program, and
`throughout_play` wherever a single answer tells something of it.
-/

namespace PenRail.Program

variable {I : Interface} {σ α V : Type} {answer : Answerer I σ} {view : σ → V} {step : V → Exchange I → V}

theorem view_play (hstep : ∀ q s, view (answer q s).2 = step (view s) ⟨q, (answer q s).1⟩) (p : Program I α) (s : σ) :
    view (p.play answer s).state = (p.play answer s).history.foldl step (view s) := by
  induction p generalizing s with
  | done a => rfl
  | ask q next ih =>
    rw [play_ask, Played.behind_state, Played.behind_history, ih, hstep]
    rfl

theorem throughout_play {P : V → Exchange I → Prop} (hstep : ∀ q s, view (answer q s).2 = step (view s) ⟨q, (answer q s).1⟩)
    (htells : ∀ q s, P (view s) ⟨q, (answer q s).1⟩) (p : Program I α) (s : σ) :
    Throughout (fun earlier x _ => P (earlier.foldl step (view s)) x) (p.play answer s).history := by
  induction p generalizing s with
  | done a => exact throughout_nil
  | ask q next ih =>
    refine throughout_cons.2 ⟨htells q s, ?_⟩
    have hrest := ih (answer q s).1 (answer q s).2
    rwa [hstep] at hrest

end PenRail.Program
