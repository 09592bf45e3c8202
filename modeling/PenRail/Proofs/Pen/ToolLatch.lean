import PenRail.Proofs.Pen.Keys

/-!
# The tool of every frame

A latch sees one sample at a time. Over a whole history of samples it can be said without the latch which tool a frame is
on: in proximity, the tool of the sample that the run of samples in proximity began with; out of proximity, the tool of
the last run there was. `tool_of_every_frame` says so, and what a consumer that replays the frames sees of it: one tool
at a time, and none out of proximity.
-/

namespace PenRail.Pen

/-! ## Runs of samples in proximity -/

/-- There is a sample `i`, and the pen is in proximity in it. -/
def nearAt (samples : List Sample) (i : Nat) : Bool :=
  samples[i]?.any Sample.inProximity

/-- A run of samples in proximity begins with sample `j`. -/
def Begins (samples : List Sample) (j : Nat) : Prop :=
  nearAt samples j = true ∧ (j = 0 ∨ nearAt samples (j - 1) = false)

/-- The maximal run of samples in proximity that sample `i` is in begins with sample `j`. -/
structure FirstOfRun (samples : List Sample) (j i : Nat) : Prop where
  begins : Begins samples j
  le : j ≤ i
  near : ∀ k, j ≤ k → k ≤ i → nearAt samples k = true

/-- Of the runs that begin before sample `i`, the last begins with sample `j`. -/
structure LatestRun (samples : List Sample) (j i : Nat) : Prop where
  begins : Begins samples j
  lt : j < i
  latest : ∀ k, j < k → k < i → ¬Begins samples k

section
variable {samples : List Sample} {i j : Nat} {s : Sample}

theorem nearAt_of_getElem? (hs : samples[i]? = some s) : nearAt samples i = s.inProximity := by
  simp [nearAt, hs]

theorem exists_of_nearAt (h : nearAt samples i = true) : ∃ s, samples[i]? = some s ∧ s.inProximity = true := by
  unfold nearAt at h
  cases hs : samples[i]? with
  | none =>
    rw [hs] at h
    cases h
  | some s =>
    rw [hs] at h
    exact ⟨s, rfl, h⟩

theorem FirstOfRun.self (h : Begins samples i) : FirstOfRun samples i i where
  begins := h
  le := Nat.le_refl i
  near k hj hk := by
    rw [Nat.le_antisymm hk hj]
    exact h.1

theorem FirstOfRun.succ (h : FirstOfRun samples j i) (hnear : nearAt samples (i + 1) = true) :
    FirstOfRun samples j (i + 1) where
  begins := h.begins
  le := Nat.le_succ_of_le h.le
  near k hj hk := by
    rcases Nat.le_succ_iff.1 hk with hk | rfl
    · exact h.near k hj hk
    · exact hnear

theorem LatestRun.self (h : Begins samples i) : LatestRun samples i (i + 1) where
  begins := h
  lt := Nat.lt_succ_self i
  latest k hj hk := by omega

theorem LatestRun.succ (h : LatestRun samples j i) (hnot : ¬Begins samples i) : LatestRun samples j (i + 1) where
  begins := h.begins
  lt := Nat.lt_succ_of_lt h.lt
  latest k hj hk := by
    rcases Nat.lt_succ_iff_lt_or_eq.1 hk with hk | rfl
    · exact h.latest k hj hk
    · exact hnot

end

/-! ## The latch after some samples -/

namespace Latch

/-- The latch after more samples. -/
def after (l : Latch) (samples : List Sample) : Latch :=
  samples.foldl next l

@[simp] theorem after_nil (l : Latch) : l.after [] = l := rfl

@[simp] theorem after_cons (l : Latch) (s : Sample) (rest : List Sample) :
    l.after (s :: rest) = (l.next s).after rest := rfl

theorem after_append (l : Latch) (samples later : List Sample) :
    l.after (samples ++ later) = (l.after samples).after later :=
  List.foldl_append

@[simp] theorem next_inProximity (l : Latch) (s : Sample) : (l.next s).inProximity = s.inProximity := rfl

/-- A session that begins takes the tool of its sample. -/
theorem next_tool_of_begins {l : Latch} {s : Sample} (hl : l.inProximity = false) (hs : s.inProximity = true) :
    (l.next s).tool = s.tool := by
  simp [next, hl, hs]

/-- The tool is held through a session and after it. -/
theorem next_tool_of_not {l : Latch} {s : Sample} (h : l.inProximity = true ∨ s.inProximity = false) :
    (l.next s).tool = l.tool := by
  rcases h with h | h <;> simp [next, h]

theorem length_frames (l : Latch) (samples : List Sample) : (l.frames samples).length = samples.length := by
  induction samples generalizing l with
  | nil => rfl
  | cons s rest ih => simp [frames, ih]

theorem frames_append (l : Latch) (samples later : List Sample) :
    l.frames (samples ++ later) = l.frames samples ++ (l.after samples).frames later := by
  induction samples generalizing l with
  | nil => rfl
  | cons s rest ih => simp [frames, ih]

theorem frames_take (l : Latch) (samples : List Sample) (n : Nat) :
    (l.frames samples).take n = l.frames (samples.take n) := by
  induction samples generalizing l n with
  | nil => simp [frames]
  | cons s rest ih =>
    cases n with
    | zero => rfl
    | succ n => rw [frames, List.take_succ_cons, List.take_succ_cons, frames, ih]

/-- The frame of sample `i` comes from the latch after the samples before it. -/
theorem frames_getElem? (l : Latch) {samples : List Sample} {i : Nat} {s : Sample} (hs : samples[i]? = some s) :
    (l.frames samples)[i]? = some ((l.after (samples.take i)).frame s, (l.after (samples.take i)).next s) := by
  induction samples generalizing l i with
  | nil => simp at hs
  | cons first rest ih =>
    cases i with
    | zero =>
      obtain rfl := Option.some.inj hs
      rfl
    | succ i => exact ih (l.next first) hs

end Latch

/-- The latch after the first `n` samples. -/
def latchAt (samples : List Sample) (n : Nat) : Latch :=
  ({} : Latch).after (samples.take n)

section
variable {samples : List Sample} {n : Nat} {s : Sample}

theorem latchAt_succ (hs : samples[n]? = some s) : latchAt samples (n + 1) = (latchAt samples n).next s := by
  rw [latchAt, List.take_add_one, hs, Option.toList_some, Latch.after_append]
  rfl

/-- Whether the pen was in proximity is what the last sample said. -/
theorem latchAt_succ_inProximity (hs : samples[n]? = some s) :
    (latchAt samples (n + 1)).inProximity = nearAt samples n := by
  rw [latchAt_succ hs, Latch.next_inProximity, nearAt_of_getElem? hs]

/-- A run begins where the latch takes the tool of the sample. -/
theorem begins_iff (hs : samples[n]? = some s) :
    Begins samples n ↔ (latchAt samples n).inProximity = false ∧ s.inProximity = true := by
  rw [Begins, nearAt_of_getElem? hs, and_comm]
  refine and_congr_left fun _ => ?_
  cases n with
  | zero => exact ⟨fun _ => rfl, fun _ => .inl rfl⟩
  | succ n =>
    have hn : n < samples.length := Nat.lt_of_succ_lt (List.getElem?_eq_some_iff.1 hs).1
    rw [latchAt_succ_inProximity (List.getElem?_eq_getElem hn), Nat.add_sub_cancel]
    simp

/-- In proximity, the tool that is held is the one the run began with. -/
theorem latchAt_tool_of_near (hnear : nearAt samples n = true) :
    ∃ j first, FirstOfRun samples j n ∧ samples[j]? = some first ∧ (latchAt samples (n + 1)).tool = first.tool := by
  induction n with
  | zero =>
    obtain ⟨s, hs, hprox⟩ := exists_of_nearAt hnear
    refine ⟨0, s, .self ⟨hnear, .inl rfl⟩, hs, ?_⟩
    rw [latchAt_succ hs]
    exact Latch.next_tool_of_begins rfl hprox
  | succ n ih =>
    obtain ⟨s, hs, hprox⟩ := exists_of_nearAt hnear
    rw [latchAt_succ hs]
    cases hrun : nearAt samples n with
    | true =>
      -- The run goes on, and so does the session of the latch.
      obtain ⟨j, first, hj, hfirst, htool⟩ := ih hrun
      obtain ⟨before, hbefore, -⟩ := exists_of_nearAt hrun
      have hsession : (latchAt samples (n + 1)).inProximity = true := (latchAt_succ_inProximity hbefore).trans hrun
      refine ⟨j, first, hj.succ hnear, hfirst, ?_⟩
      rw [Latch.next_tool_of_not (.inl hsession), htool]
    | false =>
      have hbegins : Begins samples (n + 1) := ⟨hnear, .inr hrun⟩
      refine ⟨n + 1, s, .self hbegins, hs, ?_⟩
      exact Latch.next_tool_of_begins ((begins_iff hs).1 hbegins).1 hprox

/-- The tool that is held is the one the latest run began with, and the pen if there was none. -/
theorem latchAt_tool (hn : n ≤ samples.length) :
    (∃ j first, LatestRun samples j n ∧ samples[j]? = some first ∧ (latchAt samples n).tool = first.tool) ∨
      ((∀ j < n, ¬Begins samples j) ∧ (latchAt samples n).tool = .pen) := by
  induction n with
  | zero => exact .inr ⟨nofun, rfl⟩
  | succ n ih =>
    have hs : samples[n]? = some samples[n] := List.getElem?_eq_getElem hn
    rw [latchAt_succ hs]
    by_cases hbegins : Begins samples n
    · obtain ⟨hbefore, hprox⟩ := (begins_iff hs).1 hbegins
      exact .inl ⟨n, samples[n], .self hbegins, hs, Latch.next_tool_of_begins hbefore hprox⟩
    · have hkept : ((latchAt samples n).next samples[n]).tool = (latchAt samples n).tool := by
        apply Latch.next_tool_of_not
        rw [begins_iff hs, not_and, Bool.not_eq_true] at hbegins
        cases hbefore : (latchAt samples n).inProximity with
        | true => exact .inl rfl
        | false => exact .inr (hbegins hbefore)
      rw [hkept]
      rcases ih (Nat.le_of_succ_le hn) with ⟨j, first, hj, hfirst, htool⟩ | ⟨hnone, htool⟩
      · exact .inl ⟨j, first, hj.succ hbegins, hfirst, htool⟩
      · refine .inr ⟨fun j hj => ?_, htool⟩
        rcases Nat.lt_succ_iff_lt_or_eq.1 hj with hj | rfl
        · exact hnone j hj
        · exact hbegins

end

/-! ## What a consumer sees -/

/-- The tool keys are as the latch has it: the tool that is held is pressed in proximity, and nothing else is. -/
def Keys.Follows (held : Keys) (l : Latch) : Prop :=
  ∀ t : Tool, held t.key = (l.inProximity && decide (l.tool = t))

namespace Keys.Follows

variable {held : Keys} {l : Latch}

theorem fresh : released.Follows {} :=
  fun _ => rfl

/-- A frame is enough to follow the latch, whichever tool was held before. -/
theorem frame (h : held.Follows l) (s : Sample) : (held.replay (l.frame s)).Follows (l.next s) := by
  intro t
  rw [replay_frame, Latch.toolEvent]
  by_cases ht : (l.next s).tool = t
  · rw [ht, see_key_self]
    simp
  · -- Had the other tool been pressed, its session would go on and `t` would be held.
    have hother : t.key ≠ (l.next s).tool.key := fun hkey => ht (Tool.key_inj.1 hkey).symm
    rw [see_key_of_ne held _ hother, h t, decide_eq_false ht, Bool.and_false]
    cases hl : l.inProximity with
    | false => rfl
    | true =>
      rw [Latch.next_tool_of_not (.inl hl)] at ht
      rw [decide_eq_false ht, Bool.and_false]

theorem frames (h : held.Follows l) (samples : List Sample) :
    (held.replay ((l.frames samples).flatMap Prod.fst)).Follows (l.after samples) := by
  induction samples generalizing held l with
  | nil => exact h
  | cons s rest ih =>
    rw [Latch.frames, List.flatMap_cons, replay_append, Latch.after_cons]
    exact ih (h.frame s)

theorem tool_eq (h : held.Follows l) {t : Tool} (ht : held t.key = true) : l.tool = t := by
  rw [h t, Bool.and_eq_true, decide_eq_true_eq] at ht
  exact ht.2

theorem eq_false (h : held.Follows l) (hl : l.inProximity = false) (t : Tool) : held t.key = false := by
  rw [h t, hl, Bool.false_and]

end Keys.Follows

/-- The events about tools, of all frames: one for each. -/
theorem Latch.filter_isTool_frames (l : Latch) (samples : List Sample) :
    ((l.frames samples).flatMap Prod.fst).filter Event.isTool = (l.frames samples).map fun x => x.2.toolEvent := by
  induction samples generalizing l with
  | nil => rfl
  | cons s rest ih =>
    rw [frames, List.flatMap_cons, List.filter_append, ih, filter_isTool_frame, List.map_cons, List.singleton_append]

/-- In the middle of a frame the tool keys are as they were before it, or as they are after it. -/
theorem exists_frames_of_events (l : Latch) {samples : List Sample} {earlier later : List Event}
    (h : (l.frames samples).flatMap Prod.fst = earlier ++ later) (held : Keys) :
    ∃ n, ∀ t : Tool, held.replay earlier t.key = held.replay ((l.frames (samples.take n)).flatMap Prod.fst) t.key := by
  have htools := congrArg (List.filter Event.isTool) h
  rw [l.filter_isTool_frames, List.filter_append] at htools
  obtain ⟨n, hn⟩ : ∃ n, earlier.filter Event.isTool = ((l.frames samples).map fun x => x.2.toolEvent).take n :=
    ⟨_, by rw [htools, List.take_left]⟩
  refine ⟨n, fun t => ?_⟩
  rw [← Keys.replay_filter (Event.isTool_key t) held earlier, hn, ← List.map_take, l.frames_take,
    ← l.filter_isTool_frames, Keys.replay_filter (Event.isTool_key t)]

/-- At no point of the stream of events are two tools pressed. -/
theorem eq_of_pressed {samples : List Sample} {earlier later : List Event}
    (h : (({} : Latch).frames samples).flatMap Prod.fst = earlier ++ later) {t u : Tool}
    (ht : Keys.released.replay earlier t.key = true) (hu : Keys.released.replay earlier u.key = true) : t = u := by
  obtain ⟨n, hn⟩ := exists_frames_of_events {} h Keys.released
  have hfollows := Keys.Follows.fresh.frames (samples.take n)
  rw [hn] at ht hu
  rw [← hfollows.tool_eq ht, ← hfollows.tool_eq hu]

/-- Before another tool is pressed, the one that is pressed is let go. -/
theorem released_between {samples : List Sample} {earlier between later : List Event} {t u : Tool} (htu : t ≠ u)
    (h : (({} : Latch).frames samples).flatMap Prod.fst =
      earlier ++ .key t.key true :: (between ++ .key u.key true :: later)) : .key t.key false ∈ between := by
  have hother : t.key ≠ u.key := fun hkey => htu (Tool.key_inj.1 hkey)
  refine Keys.key_false_mem (Keys.see_key_self (Keys.released.replay earlier) t.key true) ?_
  -- Otherwise `t` is still pressed when `u` is.
  have hsplit : (({} : Latch).frames samples).flatMap Prod.fst =
      (earlier ++ .key t.key true :: (between ++ [.key u.key true])) ++ later := by
    rw [h]
    simp
  rw [← Bool.not_eq_true]
  intro hpressed
  refine htu (eq_of_pressed hsplit ?_ ?_)
  · simp only [Keys.replay_append, Keys.replay_cons, Keys.replay_nil]
    rw [Keys.see_key_of_ne _ _ hother]
    exact hpressed
  · simp only [Keys.replay_append, Keys.replay_cons, Keys.replay_nil]
    exact Keys.see_key_self _ _ _

/-- The frames of a fresh latch, over any history of samples. Each has one event about a tool, pressed in proximity and let
go out of it. It is on the tool of the sample that began the run of samples in proximity; out of proximity, on the tool of
the sample that began the last run before, or on the pen if there was none. So a consumer that replays the events never
takes both tools for pressed; a tool that is pressed is let go before the other one is; and after the frame of a sample
out of proximity none is pressed. -/
theorem tool_of_every_frame (samples : List Sample) :
    let frames := ({} : Latch).frames samples
    frames.length = samples.length ∧
      (∀ i s, samples[i]? = some s → ∃ frame after tool, frames[i]? = some (frame, after) ∧
        frame.filter Event.isTool = [.key tool.key s.inProximity] ∧
        (s.inProximity = true → ∃ j first, FirstOfRun samples j i ∧ samples[j]? = some first ∧ tool = first.tool) ∧
        (s.inProximity = false →
          (∃ j first, LatestRun samples j i ∧ samples[j]? = some first ∧ tool = first.tool) ∨
            ((∀ j < i, ¬Begins samples j) ∧ tool = .pen))) ∧
      (∀ earlier later, frames.flatMap Prod.fst = earlier ++ later →
        ¬(Keys.released.replay earlier .toolPen = true ∧ Keys.released.replay earlier .toolRubber = true)) ∧
      (∀ (t u : Tool) (earlier between later : List Event), t ≠ u →
        frames.flatMap Prod.fst = earlier ++ .key t.key true :: (between ++ .key u.key true :: later) →
          .key t.key false ∈ between) ∧
      ∀ i s, samples[i]? = some s → s.inProximity = false → ∀ t : Tool,
        Keys.released.replay ((frames.take (i + 1)).flatMap Prod.fst) t.key = false := by
  intro frames
  refine ⟨({} : Latch).length_frames samples, ?_, ?_, ?_, ?_⟩
  · intro i s hs
    refine ⟨_, _, ((latchAt samples i).next s).tool, ({} : Latch).frames_getElem? hs, ?_, ?_, ?_⟩
    · exact (latchAt samples i).filter_isTool_frame s
    · intro hprox
      obtain ⟨j, first, hj, hfirst, htool⟩ := latchAt_tool_of_near ((nearAt_of_getElem? hs).trans hprox)
      rw [latchAt_succ hs] at htool
      exact ⟨j, first, hj, hfirst, htool⟩
    · intro haway
      rw [Latch.next_tool_of_not (.inr haway)]
      exact latchAt_tool (Nat.le_of_lt (List.getElem?_eq_some_iff.1 hs).1)
  · rintro earlier later h ⟨hpen, hrubber⟩
    cases eq_of_pressed h (t := .pen) (u := .eraser) hpen hrubber
  · intro t u earlier between later htu h
    exact released_between htu h
  · intro i s hs haway t
    rw [({} : Latch).frames_take]
    refine (Keys.Follows.fresh.frames (samples.take (i + 1))).eq_false ?_ t
    rw [← latchAt, latchAt_succ hs]
    exact haway

/-- An eraser comes near, looks like a pen in the middle of the stroke, and leaves. -/
def noisyStroke : List Sample :=
  [{ inProximity := true, tool := .eraser }, { inProximity := true, tool := .pen }, { inProximity := false, tool := .pen }]

/-- It is an eraser throughout, and is let go as one. -/
theorem tool_of_every_frame_noisyStroke :
    let frames := ({} : Latch).frames noisyStroke
    (∃ frame after, frames[1]? = some (frame, after) ∧ frame.filter Event.isTool = [.key .toolRubber true]) ∧
      (∃ frame after, frames[2]? = some (frame, after) ∧ frame.filter Event.isTool = [.key .toolRubber false]) ∧
      ∀ t : Tool, Keys.released.replay ((frames.take 3).flatMap Prod.fst) t.key = false := by
  intro frames
  obtain ⟨-, htools, -, -, hreleased⟩ := tool_of_every_frame noisyStroke
  have hbegins : Begins noisyStroke 0 := ⟨rfl, .inl rfl⟩
  have honly : ¬Begins noisyStroke 1 := fun h => absurd h.2 (by decide)
  refine ⟨?_, ?_, hreleased 2 _ rfl rfl⟩
  · obtain ⟨frame, after, tool, hframe, htool, hnear, -⟩ := htools 1 _ rfl
    obtain ⟨j, first, hj, hfirst, rfl⟩ := hnear rfl
    refine ⟨frame, after, hframe, ?_⟩
    match j, hj.le with
    | 0, _ =>
      obtain rfl := Option.some.inj hfirst
      exact htool
    | 1, _ => exact absurd hj.begins honly
  · obtain ⟨frame, after, tool, hframe, htool, -, haway⟩ := htools 2 _ rfl
    refine ⟨frame, after, hframe, ?_⟩
    rcases haway rfl with ⟨j, first, hj, hfirst, rfl⟩ | ⟨hnone, -⟩
    · match j, hj.lt with
      | 0, _ =>
        obtain rfl := Option.some.inj hfirst
        exact htool
      | 1, _ => exact absurd hj.begins honly
    · exact absurd hbegins (hnone 0 (by decide))

end PenRail.Pen
