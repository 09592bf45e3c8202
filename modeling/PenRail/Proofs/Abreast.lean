import PenRail.Proofs.Terms

/-!
# Two runs abreast

Two programs, each played against someone of its own, go abreast if from related states they come to related results and
states, and each exchange of the one is the exchange of the other, turned in some way that is known beforehand. So what is
claimed of two whole runs comes down to what is claimed of their parts: `Abreast.bind` puts programs together,
`Abreast.under` layers, and `Meets.abreast` says that one program goes abreast with itself where every request that it can
make is answered so that the two stay related.
-/

namespace PenRail.Program

variable {I J : Interface} {σ τ α β γ δ : Type}

/-- From states that are related before, two programs come to results and states that are related after, and the history of
the second is that of the first, turned. -/
def Abreast (first : Answerer I σ) (second : Answerer I τ) (turned : Exchange I → Exchange I) (before : σ → τ → Prop)
    (after : α → β → σ → τ → Prop) (p : Program I α) (q : Program I β) : Prop :=
  ∀ s t, before s t →
    after (p.play first s).result (q.play second t).result (p.play first s).state (q.play second t).state ∧
      (q.play second t).history = (p.play first s).history.map turned

variable {first : Answerer I σ} {second : Answerer I τ} {turned : Exchange I → Exchange I} {before : σ → τ → Prop}

theorem abreast_done {a : α} {b : β} {after : α → β → σ → τ → Prop} (h : ∀ s t, before s t → after a b s t) :
    Abreast first second turned before after (.done a) (.done b) := by
  intro s t hst
  exact ⟨h s t hst, rfl⟩

theorem abreast_request {q : I.Request} {after : I.Reply q → I.Reply q → σ → τ → Prop}
    (h : ∀ s t, before s t → after (first q s).1 (second q t).1 (first q s).2 (second q t).2 ∧
      ⟨q, (second q t).1⟩ = turned ⟨q, (first q s).1⟩) :
    Abreast first second turned before after (request q) (request q) := by
  intro s t hst
  obtain ⟨hafter, hturned⟩ := h s t hst
  refine ⟨hafter, ?_⟩
  rw [play_request, play_request, List.map_singleton, hturned]

/-- What follows has to go abreast from wherever the first parts can have come to. -/
theorem Abreast.bind {p : Program I α} {q : Program I β} {f : α → Program I γ} {g : β → Program I δ}
    {between : α → β → σ → τ → Prop} {after : γ → δ → σ → τ → Prop}
    (hp : Abreast first second turned before between p q)
    (hf : ∀ a b, Abreast first second turned (between a b) after (f a) (g b)) :
    Abreast first second turned before after (p >>= f) (q >>= g) := by
  intro s t hst
  obtain ⟨hbetween, hfirst⟩ := hp s t hst
  obtain ⟨hafter, hsecond⟩ := hf _ _ _ _ hbetween
  rw [play_bind, play_bind]
  refine ⟨hafter, ?_⟩
  simp only [Played.behind_history, List.map_append, hfirst, hsecond]

theorem Abreast.mono {p : Program I α} {q : Program I β} {earlier : σ → τ → Prop} {after later : α → β → σ → τ → Prop}
    (h : Abreast first second turned before after p q) (hbefore : ∀ s t, earlier s t → before s t)
    (hafter : ∀ a b s t, after a b s t → later a b s t) : Abreast first second turned earlier later p q := by
  intro s t hst
  obtain ⟨hends, hhistory⟩ := h s t (hbefore s t hst)
  exact ⟨hafter _ _ _ _ hends, hhistory⟩

/-- The two give the same answer to a request and stay related. -/
def AnswersAlike (first : Answerer I σ) (second : Answerer I τ) (turned : Exchange I → Exchange I)
    (related : σ → τ → Prop) (q : I.Request) : Prop :=
  ∀ s t, related s t → (second q t).1 = (first q s).1 ∧ related (first q s).2 (second q t).2 ∧
    turned ⟨q, (first q s).1⟩ = ⟨q, (first q s).1⟩

/-- A program goes abreast with itself where its requests are answered alike. -/
theorem Meets.abreast {p : Program I α} {asks : I.Request → Prop} {good : α → Prop} (hp : p.Meets { asks } good)
    {related : σ → τ → Prop} (halike : ∀ q, asks q → AnswersAlike first second turned related q) :
    Abreast first second turned related (fun a b s t => b = a ∧ good a ∧ related s t) p p := by
  induction p with
  | done a =>
    intro s t hst
    exact ⟨⟨rfl, hp, hst⟩, rfl⟩
  | ask q next ih =>
    intro s t hst
    obtain ⟨hreply, hrelated, hturned⟩ := halike q hp.1 s t hst
    obtain ⟨hends, hhistory⟩ := ih (first q s).1 (hp.2 _ trivial) _ _ hrelated
    rw [play_ask, play_ask, hreply]
    refine ⟨hends, ?_⟩
    simp only [Played.behind_history, List.map_append, List.map_singleton, hturned, hhistory]

/-- One program above two layers that go abreast at each of its requests. -/
theorem Abreast.under {layer layer' : (q : J.Request) → Program I (J.Reply q)} {related : σ → τ → Prop}
    (hlayer : ∀ q, Abreast first second turned related (fun r r' s t => r' = r ∧ related s t) (layer q) (layer' q))
    (p : Program J α) :
    Abreast first second turned related (fun a b s t => b = a ∧ related s t) (p.under layer) (p.under layer') := by
  induction p with
  | done a => exact abreast_done fun s t hst => ⟨rfl, hst⟩
  | ask q next ih =>
    refine (hlayer q).bind fun r r' => ?_
    intro s t hst
    obtain ⟨rfl, hrelated⟩ := hst
    exact ih r' s t hrelated

end PenRail.Program
