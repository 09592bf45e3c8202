import PenRail.Proofs.Pen.Forwarding

/-!
# Frames that the consumer refuses

The latch moves on before the consumer has answered. So when the consumer refuses the frame that ends a session, the tool
stays pressed for it, and the next session may press the other tool as well. `keys_of_accepted_frames` says when a tool is
pressed for a consumer that sees only the frames it took, and that it outlasts its session only if the frame that ended the
session was refused; `not_always_one_tool` is a session in which that happens.
-/

namespace PenRail.Pen

/-- The frames that the consumer took, in order. -/
def acceptedFrames (calls : List Call) : List Frame :=
  (calls.flatMap Called.history).filterMap accepted?

/-- What is pressed for a consumer that sees the frames it took. -/
def keysAfter (calls : List Call) : Keys :=
  Keys.released.replay (acceptedFrames calls).flatten

/-- A frame in proximity, on this tool, was taken. -/
def Presses (t : Tool) (k : Call) : Prop :=
  ∃ s, k.result = .ok (.notification (.delivered s)) ∧ s.inProximity = true ∧ k.after.latch.tool = t

/-- A frame out of proximity, on this tool, was taken. -/
def Releases (t : Tool) (k : Call) : Prop :=
  ∃ s, k.result = .ok (.notification (.delivered s)) ∧ s.inProximity = false ∧ k.after.latch.tool = t

/-- The frame that ends a session with this tool was refused. -/
def Loses (t : Tool) (k : Call) : Prop :=
  (∃ reason, k.result = .error (.refused reason)) ∧ k.before.latch.inProximity = true ∧
    k.after.latch.inProximity = false ∧ k.after.latch.tool = t

theorem keysAfter_append (calls : List Call) (k : Call) :
    keysAfter (calls ++ [k]) = (keysAfter calls).replay (k.history.filterMap accepted?).flatten := by
  simp [keysAfter, acceptedFrames]

/-! ## One call -/

/-- What the consumer hears of one call, and what becomes of the latch meanwhile. -/
inductive Heard (k : Call) : Prop
  | nothing (result : ∀ s, k.result ≠ .ok (.notification (.delivered s))) (accepted : k.history.filterMap accepted? = [])
      (latch : k.after.latch = k.before.latch)
  | refused {s : Sample} {reason : String} (result : k.result = .error (.refused reason))
      (accepted : k.history.filterMap accepted? = []) (latch : k.after.latch = k.before.latch.next s)
  | frame {s : Sample} (result : k.result = .ok (.notification (.delivered s)))
      (accepted : k.history.filterMap accepted? = [k.before.latch.frame s]) (latch : k.after.latch = k.before.latch.next s)

theorem Notified.heard {k : Call} {what : Result Notification} (hn : Notified k.before k.history what k.after)
    (hresult : k.result = what.map .notification) : Heard k := by
  obtain ⟨d, m, r, d', h⟩ := k
  dsimp only at hn hresult
  cases hn with
  | masked | dropped | malformed => exact .nothing (fun s hs => by cases hresult.symm.trans hs) rfl rfl
  | refused => exact .refused hresult rfl rfl
  | delivered => exact .frame hresult rfl rfl

theorem heard_made {σ : Type} (answer : Answerer interface σ) (s : Session σ) (m : Method) :
    Heard (s.made Digitizer.call answer m) := by
  rcases ends_call (s.ends_made Digitizer.call answer m) with ⟨-, what, hresult, hn⟩ | ⟨-, hresult, hview, hasked⟩
  · exact hn.heard hresult
  · refine .nothing (fun sample => hresult _) ?_ ?_
    · rw [List.filterMap_eq_nil_iff]
      intro x hx
      obtain ⟨reply, rfl⟩ := hasked x hx
      rfl
    · rw [hview, Digitizer.gated_latch, Course.made_before]

/-! ## Sessions -/

/-- What a session keeps: a tool is pressed if a press on it stands; and then the session with it goes on, or the frame that
ended the session was lost. -/
structure Traced {σ : Type} (s : Session σ) : Prop where
  pressed : ∀ t : Tool, keysAfter s.calls t.key = true ↔ Stands (Presses t) (Releases t) s.calls
  outlasts : ∀ t : Tool, keysAfter s.calls t.key = true →
    (s.view.latch.inProximity = true ∧ s.view.latch.tool = t) ∨ Stands (Loses t) (Releases t) s.calls

namespace Traced

variable {σ : Type} {s s' : Session σ} {k : Call}

/-- A call whose frame, if there is one, does not reach the consumer. -/
theorem of_unheard (hs : Traced s) (hcalls : s'.calls = s.calls ++ [k])
    (hresult : ∀ sample, k.result ≠ .ok (.notification (.delivered sample)))
    (haccepted : k.history.filterMap accepted? = [])
    (hlatch : ∀ t : Tool, s.view.latch.inProximity = true → s.view.latch.tool = t →
      (s'.view.latch.inProximity = true ∧ s'.view.latch.tool = t) ∨ Loses t k) : Traced s' := by
  have hkeys : keysAfter s'.calls = keysAfter s.calls := by
    rw [hcalls, keysAfter_append, haccepted]
    rfl
  have hpresses (t : Tool) : ¬Presses t k := fun ⟨sample, hk, _⟩ => hresult sample hk
  have hreleases (t : Tool) : ¬Releases t k := fun ⟨sample, hk, _⟩ => hresult sample hk
  refine ⟨fun t => ?_, fun t ht => ?_⟩
  · rw [hkeys, hs.pressed, hcalls, stands_append]
    simp only [hpresses t, hreleases t, not_false_eq_true, and_true, false_or]
  · rw [hkeys] at ht
    rw [hcalls, stands_append]
    rcases hs.outlasts t ht with ⟨hnear, htool⟩ | hlost
    · rcases hlatch t hnear htool with hon | hlost
      · exact .inl hon
      · exact .inr (.inl hlost)
    · exact .inr (.inr ⟨hlost, hreleases t⟩)

/-- A call whose frame the consumer takes. -/
theorem of_frame {sample : Sample} (hs : Traced s) (hcalls : s'.calls = s.calls ++ [k])
    (hresult : k.result = .ok (.notification (.delivered sample)))
    (haccepted : k.history.filterMap accepted? = [s.view.latch.frame sample])
    (hlatch : k.after.latch = s.view.latch.next sample) (hview : s'.view = k.after) : Traced s' := by
  have hkeys (t : Tool) : keysAfter s'.calls t.key = (keysAfter s.calls).see (s.view.latch.next sample).toolEvent t.key := by
    rw [hcalls, keysAfter_append, haccepted, List.flatten_singleton, Keys.replay_frame]
  have hpresses (t : Tool) : Presses t k ↔ sample.inProximity = true ∧ (s.view.latch.next sample).tool = t := by
    rw [← hlatch]
    constructor
    · rintro ⟨other, hk, hnear, htool⟩
      cases hresult.symm.trans hk
      exact ⟨hnear, htool⟩
    · rintro ⟨hnear, htool⟩
      exact ⟨sample, hresult, hnear, htool⟩
  have hreleases (t : Tool) : Releases t k ↔ sample.inProximity = false ∧ (s.view.latch.next sample).tool = t := by
    rw [← hlatch]
    constructor
    · rintro ⟨other, hk, haway, htool⟩
      cases hresult.symm.trans hk
      exact ⟨haway, htool⟩
    · rintro ⟨haway, htool⟩
      exact ⟨sample, hresult, haway, htool⟩
  refine ⟨fun t => ?_, fun t ht => ?_⟩
  · rw [hkeys, hcalls, stands_append, hpresses, hreleases, Latch.toolEvent]
    by_cases htool : (s.view.latch.next sample).tool = t
    · rw [htool, Keys.see_key_self, Latch.next_inProximity]
      cases sample.inProximity <;> simp
    · rw [Keys.see_key_of_ne _ _ fun hkey => htool (Tool.key_inj.1 hkey).symm, hs.pressed]
      simp [htool]
  · rw [hkeys, Latch.toolEvent] at ht
    rw [hview, hlatch, hcalls, stands_append, hreleases]
    by_cases htool : (s.view.latch.next sample).tool = t
    · rw [htool, Keys.see_key_self] at ht
      exact .inl ⟨ht, htool⟩
    · rw [Keys.see_key_of_ne _ _ fun hkey => htool (Tool.key_inj.1 hkey).symm] at ht
      rcases hs.outlasts t ht with ⟨hnear, hheld⟩ | hlost
      · -- The session goes on, so the frame is on its tool.
        exact absurd ((Latch.next_tool_of_not (.inl hnear)).trans hheld) htool
      · exact .inr (.inr ⟨hlost, fun h => htool h.2⟩)

theorem next (answer : Answerer interface σ) (hs : Traced s) (m : Method) : Traced (s.next Digitizer.call answer m) := by
  have hcalls := s.next_calls Digitizer.call answer m
  cases heard_made answer s m with
  | nothing hresult haccepted hlatch =>
    refine hs.of_unheard hcalls hresult haccepted fun t hnear htool => .inl ?_
    rw [Course.next_view, hlatch]
    exact ⟨hnear, htool⟩
  | @refused sample reason hresult haccepted hlatch =>
    refine hs.of_unheard hcalls (fun other hk => by cases hresult.symm.trans hk) haccepted fun t hnear htool => ?_
    have hheld : (s.view.latch.next sample).tool = t := (Latch.next_tool_of_not (.inl hnear)).trans htool
    rw [Course.next_view, hlatch]
    cases haway : sample.inProximity with
    | true => exact .inl ⟨haway, hheld⟩
    | false => exact .inr ⟨⟨reason, hresult⟩, hnear, by rw [hlatch]; exact haway, by rw [hlatch]; exact hheld⟩
  | frame hresult haccepted hlatch => exact hs.of_frame hcalls hresult haccepted hlatch rfl

theorem fresh (capabilities : Capabilities) (state : σ) : Traced ⟨[], { capabilities }, state⟩ :=
  ⟨fun _ => ⟨nofun, fun h => absurd h not_stands_nil⟩, nofun⟩

theorem run (answer : Answerer interface σ) (capabilities : Capabilities) (operations : List Method) (state : σ) :
    Traced (Course.run Digitizer.call answer operations { capabilities } state) :=
  Course.always Digitizer.call answer Traced (fresh capabilities state) fun _ m _ hs => hs.next answer m

end Traced

/-- A consumer that sees only the frames it took, after any operations on a digitizer that was probed. A tool is pressed for
it exactly when it has taken a press of the tool and no release since. A tool that is pressed although no session with it
goes on has lost the frame that ended the session, and has not been released since. So as long as no such loss stands, at
most one tool is pressed, and none out of proximity. -/
theorem keys_of_accepted_frames {σ : Type} (answer : Answerer interface σ) (start : σ) {d : Digitizer}
    (hd : (Digitizer.probe.play answer start).result = .ok d) (operations : List Method) :
    let s : Session σ := Course.run Digitizer.call answer operations d (Digitizer.probe.play answer start).state
    (∀ t : Tool, keysAfter s.calls t.key = true ↔ Stands (Presses t) (Releases t) s.calls) ∧
      (∀ t : Tool, keysAfter s.calls t.key = true →
        (s.view.latch.inProximity = true ∧ s.view.latch.tool = t) ∨ Stands (Loses t) (Releases t) s.calls) ∧
      ((∀ t : Tool, ¬Stands (Loses t) (Releases t) s.calls) →
        ¬(keysAfter s.calls .toolPen = true ∧ keysAfter s.calls .toolRubber = true) ∧
          (s.view.latch.inProximity = false → ∀ t : Tool, keysAfter s.calls t.key = false)) := by
  intro s
  have hprobe := Program.ends_play answer Digitizer.probe start
  rw [hd] at hprobe
  obtain ⟨capabilities, rfl⟩ := ends_probe hprobe
  have hs : Traced s := .run answer capabilities operations _
  refine ⟨hs.pressed, hs.outlasts, fun hkept => ?_⟩
  have hon (t : Tool) (ht : keysAfter s.calls t.key = true) :
      s.view.latch.inProximity = true ∧ s.view.latch.tool = t :=
    (hs.outlasts t ht).resolve_right (hkept t)
  refine ⟨?_, fun haway t => ?_⟩
  · rintro ⟨hpen, hrubber⟩
    cases (hon .pen hpen).2.symm.trans (hon .eraser hrubber).2
  · rw [← Bool.not_eq_true]
    intro ht
    rw [(hon t ht).1] at haway
    cases haway

/-- An eraser comes near and leaves, and a pen comes near. The consumer refuses the frame of the leaving. -/
def deafDesk : Bench.Desk where
  chip := { replies := [.bytes (List.replicate 21 0), .bytes (bareReport 0x24), .bytes (bareReport 0x00),
    .bytes (bareReport 0x20)] }
  consumer := .recorder [none, some "full"] []

/-- There both tools end up pressed, for the release of the eraser is lost. -/
theorem keys_of_accepted_frames_deafDesk :
    let probed := Digitizer.probe.play Bench.Desk.answerPen deafDesk
    ∃ d, probed.result = .ok d ∧
      let s : Session Bench.Desk :=
        Course.run Digitizer.call Bench.Desk.answerPen [.openDevice, .notify, .notify, .notify] d probed.state
      keysAfter s.calls .toolPen = true ∧ keysAfter s.calls .toolRubber = true ∧
        Stands (Presses .pen) (Releases .pen) s.calls ∧ Stands (Loses .eraser) (Releases .eraser) s.calls := by
  intro probed
  refine ⟨{ capabilities := ⟨0, 0, 0, 0, 0, 0, 0, 0⟩ }, by rfl, ?_⟩
  intro s
  obtain ⟨hpressed, houtlasts, -⟩ := keys_of_accepted_frames Bench.Desk.answerPen deafDesk
    (d := { capabilities := ⟨0, 0, 0, 0, 0, 0, 0, 0⟩ }) (by rfl) [.openDevice, .notify, .notify, .notify]
  have hpen : keysAfter s.calls .toolPen = true := by decide
  have hrubber : keysAfter s.calls .toolRubber = true := by decide
  refine ⟨hpen, hrubber, (hpressed .pen).1 hpen, (houtlasts .eraser hrubber).resolve_left ?_⟩
  rintro ⟨-, htool⟩
  exact absurd htool (by decide)

/-- So what the consumer has taken does not always leave it with one tool at most, and none after a frame out of
proximity. -/
theorem not_always_one_tool :
    ¬∀ (σ : Type) (answer : Answerer interface σ) (start : σ) (d : Digitizer),
      (Digitizer.probe.play answer start).result = .ok d → ∀ operations : List Method,
        let s : Session σ := Course.run Digitizer.call answer operations d (Digitizer.probe.play answer start).state
        ¬(keysAfter s.calls .toolPen = true ∧ keysAfter s.calls .toolRubber = true) ∧
          ∀ m sample, (s.made Digitizer.call answer m).result = .ok (.notification (.delivered sample)) →
            sample.inProximity = false → ∀ t : Tool, keysAfter (s.next Digitizer.call answer m).calls t.key = false := by
  intro h
  obtain ⟨hone, -⟩ := h Bench.Desk Bench.Desk.answerPen deafDesk { capabilities := ⟨0, 0, 0, 0, 0, 0, 0, 0⟩ } (by rfl)
    [.openDevice, .notify, .notify, .notify]
  exact hone ⟨by decide, by decide⟩

end PenRail.Pen
