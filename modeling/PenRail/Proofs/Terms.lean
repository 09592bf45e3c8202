import PenRail.Process
import PenRail.Proofs.Course

/-!
# Programs on terms

What a program does may rest on how it is answered. `Terms` are what is agreed on between the two: the requests that may be
made, and what may be counted on in an answer. `Program.Meets` says that a program keeps to its side as long as it is
answered on those terms, and that it then ends well.

`Meets.bind` puts programs together, `Meets.under` goes from a layer to what it is made of, and `Process.meets_unroll` is
the induction over the rounds of a process.
-/

namespace PenRail

/-- What is agreed on between a program and whoever answers it. -/
structure Terms (I : Interface) where
  /-- The requests that may be made. -/
  asks : I.Request → Prop := fun _ => True
  /-- The answers that may be counted on. -/
  fine : Exchange I → Prop := fun _ => True

namespace Program

variable {I J : Interface} {S α β : Type} {terms : Terms I} {good : α → Prop}

/-- As long as it is answered on these terms, the program asks on these terms, and what it ends with is good. -/
def Meets (terms : Terms I) (good : α → Prop) : Program I α → Prop
  | .done a => good a
  | .ask q next => terms.asks q ∧ ∀ r, terms.fine ⟨q, r⟩ → (next r).Meets terms good

theorem meets_request {q : I.Request} {good : I.Reply q → Prop} (hasks : terms.asks q)
    (hgood : ∀ r, terms.fine ⟨q, r⟩ → good r) : (request q).Meets terms good :=
  ⟨hasks, hgood⟩

theorem Meets.bind {p : Program I β} {f : β → Program I α} {between : β → Prop} (hp : p.Meets terms between)
    (hf : ∀ b, between b → (f b).Meets terms good) : (p >>= f).Meets terms good := by
  induction p with
  | done b => exact hf b hp
  | ask q next ih => exact ⟨hp.1, fun r hr => ih r (hp.2 r hr)⟩

/-- A program may be held to looser terms: it is allowed to ask for more, and as much can be counted on. -/
theorem Meets.loosen {p : Program I α} {looser : Terms I} (hp : p.Meets terms good)
    (hasks : ∀ q, terms.asks q → looser.asks q) (hfine : ∀ x, looser.fine x → terms.fine x) : p.Meets looser good := by
  induction p with
  | done a => exact hp
  | ask q next ih => exact ⟨hasks q hp.1, fun r hr => ih r (hp.2 r (hfine _ hr))⟩

/-- Where anything may be asked, every program will do. -/
theorem meets_trivial {fine : Exchange I → Prop} (p : Program I α) : p.Meets { fine } fun _ => True := by
  induction p with
  | done a => trivial
  | ask q next ih => exact ⟨trivial, fun r _ => ih r⟩

/-- Answered on the terms, the program has kept to them. -/
theorem Meets.ends {p : Program I α} (hp : p.Meets terms good) {h : History I} {a : α} (he : p.Ends h a)
    (hfine : ∀ x ∈ h, terms.fine x) : (∀ x ∈ h, terms.asks x.request) ∧ good a := by
  induction he with
  | done a => exact ⟨by simp, hp⟩
  | ask _ ih =>
    obtain ⟨hlater, hgood⟩ := ih (hp.2 _ (hfine _ List.mem_cons_self)) fun x hx => hfine x (List.mem_cons_of_mem _ hx)
    refine ⟨fun x hx => ?_, hgood⟩
    rcases List.mem_cons.1 hx with rfl | hx
    · exact hp.1
    · exact hlater x hx

/-- Whoever always answers like this has answered like this. -/
theorem fine_play {σ : Type} {answer : Answerer I σ} {fine : Exchange I → Prop} (h : ∀ q s, fine ⟨q, (answer q s).1⟩)
    (p : Program I α) (s : σ) : ∀ x ∈ (p.play answer s).history, fine x := by
  induction p generalizing s with
  | done a => simp
  | ask q next ih =>
    intro x hx
    rcases List.mem_cons.1 hx with rfl | hx
    · exact h q s
    · exact ih _ _ x hx

/-- Each request of the program is answered by what a layer makes of it, which has terms of its own. -/
theorem Meets.under {outer : Terms J} {layer : (q : J.Request) → Program I (J.Reply q)} {p : Program J α}
    (hp : p.Meets outer good) (hlayer : ∀ q, outer.asks q → (layer q).Meets terms fun r => outer.fine ⟨q, r⟩) :
    (p.under layer).Meets terms good := by
  induction p with
  | done a => exact hp
  | ask q next ih => exact (hlayer q hp.1).bind fun r hr => ih r (hp.2 r hr)

/-- The same for a layer that remembers something. -/
theorem Meets.underState {outer : Terms J} {layer : (q : J.Request) → StateT S (Program I) (J.Reply q)} {p : Program J α}
    (hp : p.Meets outer good)
    (hlayer : ∀ q s, outer.asks q → ((layer q).run s).Meets terms fun r => outer.fine ⟨q, r.1⟩) (s : S) :
    ((p.under layer).run s).Meets terms fun r => good r.1 := by
  induction p generalizing s with
  | done a => exact hp
  | ask q next ih => exact (hlayer q s hp.1).bind fun r hr => ih r.1 (hp.2 r.1 hr) r.2

/-- A layer that keeps to its terms whatever it is asked for does so under every program. -/
theorem meets_under {layer : (q : J.Request) → Program I (J.Reply q)} (hlayer : ∀ q, (layer q).Meets terms fun _ => True)
    (p : Program J α) : (p.under layer).Meets terms fun _ => True :=
  (@meets_trivial J α (fun _ => True) p).under fun q _ => hlayer q

/-- The same for a layer that remembers something. -/
theorem meets_underState {layer : (q : J.Request) → StateT S (Program I) (J.Reply q)}
    (hlayer : ∀ q s, ((layer q).run s).Meets terms fun _ => True) (p : Program J α) (s : S) :
    ((p.under layer).run s).Meets terms fun _ => True :=
  (@meets_trivial J α (fun _ => True) p).underState (fun q s _ => hlayer q s) s

end Program

/-- What is to hold between two rounds, and what at the end. -/
def Turn.Holds {σ α : Type} (between : σ → Prop) (good : α → Prop) : Turn σ α → Prop
  | .again s => between s
  | .over a => good a

/-- What the start settles and each round keeps is so after any number of rounds. -/
theorem Process.meets_unroll {I : Interface} {α : Type} {terms : Terms I} {good : α → Prop} {p : Process I α}
    {between : p.State → Prop} (hstart : p.start.Meets terms (Turn.Holds between good))
    (hround : ∀ s, between s → (p.round s).Meets terms (Turn.Holds between good)) (n : Nat) :
    (p.unroll n).Meets terms (Turn.Holds between good) := by
  induction n with
  | zero =>
    rw [p.unroll_zero]
    exact hstart
  | succ n ih =>
    rw [p.unroll_succ]
    refine ih.bind fun t ht => ?_
    rcases t with s | a
    · exact hround s ht
    · exact ht

/-- Every call of a course went as its operation can go, and was answered as whoever answers always does. -/
theorem Course.ends_run {I : Interface} {S M R σ : Type} {operate : Operations I S M R} {answer : Answerer I σ}
    {fine : Exchange I → Prop} (hfine : ∀ q s, fine ⟨q, (answer q s).1⟩) (operations : List M) (view : S) (state : σ) :
    ∀ k ∈ (run operate answer operations view state).calls,
      (operate k.before k.operation).Ends k.history (k.result, k.after) ∧ ∀ x ∈ k.history, fine x :=
  forall_calls_run operate answer _ (fun c m => ⟨c.ends_made operate answer m, Program.fine_play hfine _ _⟩) operations view
    state

end PenRail
