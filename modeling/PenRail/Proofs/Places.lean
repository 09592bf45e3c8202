/-!
# Places in a list

What is said of a trace is often said of each of its places: of what is there, of all that came before it and of all that
comes after it. `Throughout` is that form of statement, and the lemmas put it together from the parts of a list.
-/

namespace PenRail

variable {α β : Type} {P Q : List α → α → List α → Prop}

/-- `P` holds at every place of the list: of what is before the place, of what is there and of what is behind it. -/
def Throughout (P : List α → α → List α → Prop) (l : List α) : Prop :=
  ∀ earlier x later, l = earlier ++ x :: later → P earlier x later

@[simp] theorem throughout_nil : Throughout P [] := by
  intro earlier x later h
  simp at h

@[simp] theorem throughout_cons {x : α} {l : List α} :
    Throughout P (x :: l) ↔ P [] x l ∧ Throughout (fun earlier => P (x :: earlier)) l := by
  constructor
  · intro h
    exact ⟨h [] x l rfl, fun earlier y later hl => h (x :: earlier) y later (by rw [hl, List.cons_append])⟩
  · rintro ⟨hx, hl⟩ earlier y later h
    cases earlier with
    | nil =>
      obtain ⟨rfl, rfl⟩ := List.cons.inj h
      exact hx
    | cons z earlier =>
      obtain ⟨rfl, rfl⟩ := List.cons.inj h
      exact hl earlier y later rfl

theorem throughout_append {l₁ l₂ : List α} :
    Throughout P (l₁ ++ l₂) ↔
      Throughout (fun earlier x later => P earlier x (later ++ l₂)) l₁ ∧
        Throughout (fun earlier => P (l₁ ++ earlier)) l₂ := by
  induction l₁ generalizing P with
  | nil => simp
  | cons x l₁ ih => simp [ih, and_assoc]

/-- Where only what came before matters, one more place is one more thing to say. -/
theorem throughout_concat {R : List α → α → Prop} {l : List α} {x : α} :
    Throughout (fun earlier y _ => R earlier y) (l ++ [x]) ↔ Throughout (fun earlier y _ => R earlier y) l ∧ R l x := by
  simp [throughout_append]

theorem Throughout.mono {l : List α} (h : Throughout P l) (hPQ : ∀ earlier x later, P earlier x later → Q earlier x later) :
    Throughout Q l :=
  fun earlier x later hl => hPQ earlier x later (h earlier x later hl)

/-- The places of a list that is put together from parts are the places of its parts. -/
theorem throughout_flatMap {l : List β} {f : β → List α} :
    Throughout P (l.flatMap f) ↔
      Throughout (fun before k after =>
        Throughout (fun earlier x later => P (before.flatMap f ++ earlier) x (later ++ after.flatMap f)) (f k)) l := by
  induction l generalizing P with
  | nil => simp
  | cons k l ih => simp [throughout_append, ih]

/-- The places of what is picked out of a list are the places where something is picked. -/
theorem throughout_filterMap {l : List β} {f : β → Option α} :
    Throughout P (l.filterMap f) ↔
      Throughout (fun earlier y later => ∀ x, f y = some x → P (earlier.filterMap f) x (later.filterMap f)) l := by
  induction l generalizing P with
  | nil => simp
  | cons y l ih =>
    cases hy : f y with
    | none => simp [hy, ih]
    | some x => simp [hy, ih]

end PenRail
