import PenRail.Proofs.History

/-!
# Courses of operations

What is operated has a view of its own, and each operation on it is a program that ends with a result and the next view.
A course is a list of operations carried out one after the other against whoever answers, with each call kept as it went.

`Course.kept_after` is the induction over courses: what every operation of a list keeps, the list keeps. So what holds at the
start and is kept by every operation holds at the end (`Course.always`). `Stands` says that something happened among the calls
so far and has not been settled since.
-/

namespace PenRail

/-- How operations are carried out on a view. -/
abbrev Operations (I : Interface) (S M R : Type) := S → M → Program I (R × S)

/-- An operation as it was called and as it ended. -/
structure Called (I : Interface) (S M R : Type) where
  before : S
  operation : M
  result : R
  after : S
  history : History I

structure Course (I : Interface) (S M R σ : Type) where
  /-- The calls so far, oldest first. -/
  calls : List (Called I S M R) := []
  view : S
  /-- Whoever answers, as they are now. -/
  state : σ

namespace Course

variable {I : Interface} {S M R σ : Type} (operate : Operations I S M R) (answer : Answerer I σ)

/-- The call of an operation that comes next. -/
def made (c : Course I S M R σ) (m : M) : Called I S M R :=
  let r := (operate c.view m).play answer c.state
  ⟨c.view, m, r.result.1, r.result.2, r.history⟩

/-- One more operation. -/
def next (c : Course I S M R σ) (m : M) : Course I S M R σ where
  calls := c.calls ++ [c.made operate answer m]
  view := (c.made operate answer m).after
  state := ((operate c.view m).play answer c.state).state

/-- The course after more operations. -/
def after (c : Course I S M R σ) (operations : List M) : Course I S M R σ :=
  operations.foldl (next operate answer) c

/-- Operations carried out from a view on. -/
def run (operations : List M) (view : S) (state : σ) : Course I S M R σ :=
  operations.foldl (next operate answer) { view, state }

/-- All that was exchanged in the calls so far. -/
def exchanged (c : Course I S M R σ) : History I :=
  c.calls.flatMap Called.history

section
variable (c : Course I S M R σ) (m : M)

@[simp] theorem made_before : (c.made operate answer m).before = c.view := rfl

@[simp] theorem made_operation : (c.made operate answer m).operation = m := rfl

@[simp] theorem next_calls : (c.next operate answer m).calls = c.calls ++ [c.made operate answer m] := rfl

@[simp] theorem next_view : (c.next operate answer m).view = (c.made operate answer m).after := rfl

@[simp] theorem exchanged_next :
    (c.next operate answer m).exchanged = c.exchanged ++ (c.made operate answer m).history := by
  simp [exchanged]

/-- A call that asks for nothing leaves whoever answers alone. -/
theorem next_state_of_history_nil (h : (c.made operate answer m).history = []) :
    (c.next operate answer m).state = c.state :=
  Program.play_state_of_history_nil answer h

end

/-- What is kept by every operation of a list is kept by the list. -/
theorem kept_after (holds : Course I S M R σ → Prop) {operations : List M}
    (kept : ∀ c, ∀ m ∈ operations, holds c → holds (c.next operate answer m)) {c : Course I S M R σ} (hc : holds c) :
    holds (c.after operate answer operations) := by
  induction operations generalizing c with
  | nil => exact hc
  | cons m rest ih =>
    have hnext : holds (c.next operate answer m) := kept c m List.mem_cons_self hc
    exact ih (fun c n hn => kept c n (List.mem_cons_of_mem m hn)) hnext

/-- What holds at the start and is kept by every operation of a list holds after the list. -/
theorem always (holds : Course I S M R σ → Prop) {operations : List M} {view : S} {state : σ}
    (start : holds { view, state }) (kept : ∀ c, ∀ m ∈ operations, holds c → holds (c.next operate answer m)) :
    holds (run operate answer operations view state) :=
  kept_after operate answer holds kept start

theorem ends_made (c : Course I S M R σ) (m : M) :
    (operate c.view m).Ends (c.made operate answer m).history
      ((c.made operate answer m).result, (c.made operate answer m).after) :=
  Program.ends_play answer (operate c.view m) c.state

/-- What every call has that is made, every call of a course has. -/
theorem forall_calls_run (has : Called I S M R → Prop) (hmade : ∀ c m, has (made operate answer c m)) (operations : List M)
    (view : S) (state : σ) : ∀ k ∈ (run operate answer operations view state).calls, has k := by
  let holds (c : Course I S M R σ) : Prop := ∀ k ∈ c.calls, has k
  refine always operate answer holds (by simp [holds]) (fun c m _ hc k hk => ?_)
  rcases List.mem_append.1 hk with hk | hk
  · exact hc k hk
  · obtain rfl := List.mem_singleton.1 hk
    exact hmade c m

/-- The calls are those of the operations that were listed, in order. -/
theorem operations_run (operations : List M) (view : S) (state : σ) :
    (run operate answer operations view state).calls.map Called.operation = operations := by
  suffices h : ∀ c : Course I S M R σ,
      (operations.foldl (next operate answer) c).calls.map Called.operation = c.calls.map Called.operation ++ operations
    from h _
  induction operations with
  | nil => simp
  | cons m rest ih =>
    intro c
    rw [List.foldl_cons, ih]
    simp [next, made]

end Course

/-! ## What stands after the calls so far -/

/-- Something happened, and nothing after it has settled it. -/
def Stands {α : Type} (happened settled : α → Prop) (calls : List α) : Prop :=
  ∃ earlier k later, calls = earlier ++ k :: later ∧ happened k ∧ ∀ x ∈ later, ¬settled x

section
variable {α : Type} {happened settled : α → Prop}

theorem not_stands_nil : ¬Stands happened settled [] := by
  rintro ⟨earlier, k, later, h, -⟩
  simp at h

/-- It happened in the latest call, or in an earlier one and the latest has not settled it. -/
theorem stands_append {calls : List α} {k : α} :
    Stands happened settled (calls ++ [k]) ↔ happened k ∨ (Stands happened settled calls ∧ ¬settled k) := by
  constructor
  · rintro ⟨earlier, j, later, h, hj, hlater⟩
    rcases later.eq_nil_or_concat with rfl | ⟨later, x, rfl⟩
    · obtain ⟨-, hx⟩ := List.append_inj' h rfl
      obtain rfl := (List.cons.inj hx).1
      exact .inl hj
    · rw [List.concat_eq_append, ← List.cons_append, ← List.append_assoc] at h
      obtain ⟨rfl, hx⟩ := List.append_inj' h rfl
      obtain rfl := (List.cons.inj hx).1
      rw [List.concat_eq_append] at hlater
      refine .inr ⟨⟨earlier, j, later, rfl, hj, fun y hy => hlater y (List.mem_append_left _ hy)⟩, ?_⟩
      exact hlater k (by simp)
  · rintro (hk | ⟨⟨earlier, j, later, rfl, hj, hlater⟩, hk⟩)
    · exact ⟨calls, k, [], rfl, hk, by simp⟩
    · refine ⟨earlier, j, later ++ [k], by simp, hj, fun x hx => ?_⟩
      rcases List.mem_append.1 hx with hx | hx
      · exact hlater x hx
      · obtain rfl := List.mem_singleton.1 hx
        exact hk

end

end PenRail
