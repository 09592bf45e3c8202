import PenRail.Pen.Latch

/-!
# What a consumer takes for pressed

A consumer of frames knows no sessions and no tools: it replays key events, and a key is pressed if the last event about it
said so. `replay_frame` says that all a frame does to the tool keys is its one event about the tool that is held, and
`key_false_mem` that a key which was pressed and is not any more has been let go in between.
-/

namespace PenRail.Pen

/-- The keys that are pressed. -/
abbrev Keys := Key → Bool

namespace Keys

def released : Keys :=
  fun _ => false

/-- The keys after one more event. Only key events count. -/
def see (held : Keys) : Event → Keys
  | .key k pressed => fun k' => if k' = k then pressed else held k'
  | .axis _ _ | .sync => held

/-- The keys after more events, in order. -/
def replay (held : Keys) (events : List Event) : Keys :=
  events.foldl see held

@[simp] theorem replay_nil (held : Keys) : held.replay [] = held := rfl

@[simp] theorem replay_cons (held : Keys) (e : Event) (events : List Event) :
    held.replay (e :: events) = (held.see e).replay events := rfl

@[simp] theorem replay_append (held : Keys) (events later : List Event) :
    held.replay (events ++ later) = (held.replay events).replay later :=
  List.foldl_append

@[simp] theorem see_key_self (held : Keys) (k : Key) (pressed : Bool) : held.see (.key k pressed) k = pressed := by
  simp [see]

theorem see_key_of_ne (held : Keys) {k k' : Key} (pressed : Bool) (h : k' ≠ k) : held.see (.key k pressed) k' = held k' := by
  simp [see, h]

/-- What becomes of a key depends on that key alone. -/
theorem see_congr {held other : Keys} {k : Key} (h : held k = other k) (e : Event) : held.see e k = other.see e k := by
  cases e with
  | key k' pressed => by_cases hk : k = k' <;> simp [see, hk, h]
  | axis | sync => exact h

theorem replay_congr {held other : Keys} {k : Key} (h : held k = other k) (events : List Event) :
    held.replay events k = other.replay events k := by
  induction events generalizing held other with
  | nil => exact h
  | cons e events ih => exact ih (see_congr h e)

/-- Only the events about a key matter to it. -/
theorem replay_filter {about : Event → Bool} {k : Key} (habout : ∀ pressed, about (.key k pressed) = true) (held : Keys)
    (events : List Event) : held.replay (events.filter about) k = held.replay events k := by
  induction events generalizing held with
  | nil => rfl
  | cons e events ih =>
    cases he : about e with
    | true => rw [List.filter_cons_of_pos he, replay_cons, replay_cons, ih]
    | false =>
      rw [List.filter_cons_of_neg (by simp [he]), replay_cons, ih]
      refine replay_congr ?_ events
      cases e with
      | key k' pressed =>
        refine (see_key_of_ne held pressed ?_).symm
        rintro rfl
        cases (habout pressed).symm.trans he
      | axis | sync => rfl

/-- A key that was pressed and is not any more has been let go in between. -/
theorem key_false_mem {held : Keys} {k : Key} {events : List Event} (hpressed : held k = true)
    (h : held.replay events k = false) : .key k false ∈ events := by
  induction events generalizing held with
  | nil =>
    rw [replay_nil, hpressed] at h
    cases h
  | cons e events ih =>
    by_cases he : e = .key k false
    · rw [he]
      exact List.mem_cons_self
    · refine List.mem_cons_of_mem e (ih ?_ h)
      cases e with
      | key k' pressed =>
        by_cases hk : k = k'
        · subst hk
          cases pressed with
          | false => exact absurd rfl he
          | true => exact see_key_self held k true
        · rw [see_key_of_ne held pressed hk, hpressed]
      | axis | sync => exact hpressed

end Keys

/-! ## The tool keys -/

theorem Tool.key_inj {t u : Tool} : t.key = u.key ↔ t = u := by
  cases t <;> cases u <;> decide

/-- An event about one of the tool keys. -/
def Event.isTool : Event → Bool
  | .key .toolPen _ | .key .toolRubber _ => true
  | _ => false

theorem Event.isTool_key (t : Tool) (pressed : Bool) : Event.isTool (.key t.key pressed) = true := by
  cases t <;> rfl

/-- What a latch has a consumer know of the tools. -/
def Latch.toolEvent (l : Latch) : Event :=
  .key l.tool.key l.inProximity

/-- A frame has one event about a tool, on the tool that is held. -/
theorem Latch.filter_isTool_frame (l : Latch) (s : Sample) :
    (l.frame s).filter Event.isTool = [(l.next s).toolEvent] := by
  unfold frame toolEvent
  cases (l.next s).tool <;> rfl

/-- The other events of a frame do not matter to the tool keys. -/
theorem Keys.replay_frame (held : Keys) (l : Latch) (s : Sample) (t : Tool) :
    held.replay (l.frame s) t.key = held.see (l.next s).toolEvent t.key := by
  rw [← replay_filter (Event.isTool_key t), l.filter_isTool_frame s, replay_cons, replay_nil]

end PenRail.Pen
