import PenRail.Proofs.Course

/-!
# Two who answer alike

A program sees nothing of whoever answers but the answers. So when two give the same answers, a program ends in the same
way with either, and so does a course of operations. `Alike` asks for that one request at a time: of the first one's answer
it may be assumed that it is fine, and what relates the two may depend on all that was exchanged. `play_alike` and
`run_alike` are the inductions over a program and over a course.
-/

namespace PenRail

variable {I : Interface} {S M R σ τ α : Type}

/-- As long as the first one's answers are fine, the second one gives the same, and the two stay related. -/
def Alike (first : Answerer I σ) (second : Answerer I τ) (fine : Exchange I → Prop) (related : History I → σ → τ → Prop) :
    Prop :=
  ∀ (h : History I) (s : σ) (t : τ) (q : I.Request), related h s t → fine ⟨q, (first q s).1⟩ →
    (second q t).1 = (first q s).1 ∧ related (h ++ [⟨q, (first q s).1⟩]) (first q s).2 (second q t).2

variable {first : Answerer I σ} {second : Answerer I τ} {fine : Exchange I → Prop} {related : History I → σ → τ → Prop}

namespace Program

/-- A program ends alike. -/
theorem play_alike (halike : Alike first second fine related) (p : Program I α) {h : History I} {s : σ} {t : τ}
    (hst : related h s t) (hfine : ∀ x ∈ (p.play first s).history, fine x) :
    (p.play second t).result = (p.play first s).result ∧ (p.play second t).history = (p.play first s).history ∧
      related (h ++ (p.play first s).history) (p.play first s).state (p.play second t).state := by
  induction p generalizing h s t with
  | done a => exact ⟨rfl, rfl, by simpa using hst⟩
  | ask q next ih =>
    obtain ⟨hreply, hlater⟩ := halike h s t q hst (hfine _ (by simp))
    obtain ⟨hresult, hhistory, hrelated⟩ := ih (first q s).1 hlater fun x hx => hfine x (by simp [hx])
    simp only [play_ask, Played.behind_result, Played.behind_history, Played.behind_state, hreply]
    exact ⟨hresult, congrArg _ hhistory, by simpa using hrelated⟩

end Program

namespace Course

variable (operate : Operations I S M R)

/-- A call that was made stays among the calls. -/
theorem mem_calls_foldl (operations : List M) {c : Course I S M R σ} {k : Called I S M R} (hk : k ∈ c.calls) :
    k ∈ (operations.foldl (next operate first) c).calls := by
  induction operations generalizing c with
  | nil => exact hk
  | cons m rest ih => exact ih (List.mem_append_left _ hk)

/-- Two courses that went alike: the same calls, the same view, and who answers are still related. -/
structure WentAlike (related : History I → σ → τ → Prop) (c : Course I S M R σ) (d : Course I S M R τ) : Prop where
  calls : d.calls = c.calls
  view : d.view = c.view
  state : related c.exchanged c.state d.state

theorem next_alike (halike : Alike first second fine related) {c : Course I S M R σ} {d : Course I S M R τ}
    (hcd : WentAlike related c d) (m : M) (hfine : ∀ x ∈ (c.made operate first m).history, fine x) :
    WentAlike related (c.next operate first m) (d.next operate second m) := by
  obtain ⟨hresult, hhistory, hrelated⟩ := (operate c.view m).play_alike halike hcd.state hfine
  have hmade : d.made operate second m = c.made operate first m := by
    simp only [made, hcd.view, hresult, hhistory]
  constructor
  · rw [next_calls, next_calls, hcd.calls, hmade]
  · rw [next_view, next_view, hmade]
  · rw [exchanged_next]
    simp only [next, hcd.view]
    exact hrelated

/-- A course of operations goes alike. -/
theorem run_alike (halike : Alike first second fine related) (operations : List M) (view : S) {s : σ} {t : τ}
    (hst : related [] s t) (hfine : ∀ x ∈ (run operate first operations view s).exchanged, fine x) :
    WentAlike related (run operate first operations view s) (run operate second operations view t) := by
  suffices h : ∀ (c : Course I S M R σ) (d : Course I S M R τ), WentAlike related c d →
      (∀ x ∈ (operations.foldl (next operate first) c).exchanged, fine x) →
        WentAlike related (operations.foldl (next operate first) c) (operations.foldl (next operate second) d)
    from h _ _ ⟨rfl, rfl, hst⟩ hfine
  clear hfine
  induction operations with
  | nil => exact fun c d hcd _ => hcd
  | cons m rest ih =>
    intro c d hcd hfine
    -- Only the calls of the whole course are known to be fine, and this one is among them.
    refine ih _ _ (next_alike operate halike hcd m fun x hx => ?_) hfine
    exact hfine x (List.mem_flatMap.2 ⟨_, mem_calls_foldl operate rest (by simp), hx⟩)

end Course

end PenRail
