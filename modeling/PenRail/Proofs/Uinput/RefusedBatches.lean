import PenRail.Bench.Desk
import PenRail.Proofs.Course

/-!
# Frames that the input layer refuses

The writer forgets its pending events only when both the write and the finish have gone through. So a frame that was
refused is written once more, in front of the next one. `write_of_every_frame` says what each write carries: the events of
all frames refused since one went through, and then its own.
-/

namespace PenRail.Uinput

open Pen (Event Frame RawEvent)
open Program (ends_bind ends_done ends_request)

/-- The events of a frame as the input layer takes them, in order. -/
def rawEvents (frame : Frame) : List RawEvent :=
  frame.filterMap Event.raw?

/-- Key and axis events, and one `sync` behind them. -/
def Closed (frame : Frame) : Prop :=
  ∃ body, .sync ∉ body ∧ frame = body ++ [.sync]

/-- What the latch makes of a sample is a frame. -/
theorem closed_frame (l : Pen.Latch) (sample : Pen.Sample) : Closed (l.frame sample) :=
  ⟨(l.frame sample).dropLast, by simp [Pen.Latch.frame, Pen.Latch.frameOf], rfl⟩

/-- The events of a write, whether or not it succeeded. -/
def written? (x : Exchange interface) : Option (List RawEvent) :=
  match x.request with
  | .call (.write events) => some events
  | _ => none

/-! ## What is said -/

section
variable {h : History interface}

/-- What is said when frame `n` is finished. -/
def announcements (n : Nat) : List Log.Entry :=
  (if n = 1 then [⟨.info, "Pen events flowing"⟩] else []) ++
    if n % 500 = 0 then [⟨.debug, s!"Pen frames forwarded: {n}"⟩] else []

/-- An entry that was made in the log. -/
def said (entry : Log.Entry) : Exchange interface :=
  ⟨.log entry, ()⟩

theorem ends_say {level : Log.Level} {text : String} {u : Unit} (he : (say level text).Ends h u) : h = [said ⟨level, text⟩] :=
  ends_request.1 he

theorem ends_announce {n : Nat} {u : Unit} (he : (Writer.announce n).Ends h u) : h = (announcements n).map said := by
  have hperiodic {h : History interface} {u : Unit}
      (he : (if n % Writer.reportEvery = 0 then say .debug s!"Pen frames forwarded: {n}" else pure ()).Ends h u) :
      h = (if n % 500 = 0 then [⟨.debug, s!"Pen frames forwarded: {n}"⟩] else []).map said := by
    change (if n % 500 = 0 then _ else _ : Program interface Unit).Ends h u at he
    by_cases hn : n % 500 = 0
    · rw [if_pos hn] at he ⊢
      exact ends_say he
    · rw [if_neg hn] at he ⊢
      exact (ends_done.1 he).1
  unfold Writer.announce at he
  unfold announcements
  by_cases hfirst : n = 1
  · rw [if_pos hfirst] at he ⊢
    obtain ⟨h₁, _, h₂, rfl, hflowing, hrest⟩ := ends_bind.1 he
    rw [ends_say hflowing, hperiodic hrest, List.map_append]
    rfl
  · rw [if_neg hfirst] at he ⊢
    exact hperiodic he

end

/-! ## One frame -/

theorem raw?_isSome {e : Event} (h : e ≠ .sync) : ∃ raw, e.raw? = some raw := by
  cases e with
  | key | axis => exact ⟨_, rfl⟩
  | sync => exact absurd rfl h

namespace Writer

variable {w w' : Writer} {h : History interface}

/-- Events before the next `sync` are only kept. -/
theorem submit_body (w : Writer) {body : Frame} (hbody : .sync ∉ body) (rest : Frame) :
    w.submit (body ++ rest) = { w with pending := w.pending ++ rawEvents body }.submit rest := by
  induction body generalizing w with
  | nil => simp [rawEvents]
  | cons e body ih =>
    obtain ⟨raw, hraw⟩ := raw?_isSome (e := e) fun he => hbody (he ▸ List.mem_cons_self)
    rw [List.cons_append, submit, hraw]
    dsimp only
    rw [ih _ fun he => hbody (List.mem_cons_of_mem e he)]
    simp [rawEvents, hraw]

/-- The batch that was written, and what came of it. -/
inductive Flushed (w : Writer) : History interface → Except String Writer → Prop
  | unwritten (reason : String) : Flushed w [⟨.call (.write w.pending), .error reason⟩] (.error reason)
  | unfinished (reason : String) :
      Flushed w [⟨.call (.write w.pending), .ok ()⟩, ⟨.call .finish, .error reason⟩] (.error reason)
  | finished {said : History interface} (logs : ∀ x ∈ said, ∃ entry, x.request = .log entry) :
      Flushed w (⟨.call (.write w.pending), .ok ()⟩ :: ⟨.call .finish, .ok ()⟩ :: said) (.ok ⟨[], w.finished + 1⟩)

theorem ends_call {c : Call} {r : Except String Unit} : (call c).Ends h r ↔ h = [⟨.call c, r⟩] :=
  ends_request

theorem ends_flush {r : Except String Writer} (he : w.flush.Ends h r) : Flushed w h r := by
  obtain ⟨_, wrote, rest, rfl, hwrite, hrest⟩ := ends_bind.1 he
  obtain rfl := ends_call.1 hwrite
  rcases wrote with reason | u
  · obtain ⟨rfl, rfl⟩ := ends_done.1 hrest
    exact .unwritten reason
  · obtain ⟨_, done, _, rfl, hfinish, hend⟩ := ends_bind.1 hrest
    obtain rfl := ends_call.1 hfinish
    rcases done with reason | u
    · obtain ⟨rfl, rfl⟩ := ends_done.1 hend
      exact .unfinished reason
    · obtain ⟨said, _, _, rfl, hsaid, hlast⟩ := ends_bind.1 hend
      obtain ⟨rfl, rfl⟩ := ends_done.1 hlast
      rw [List.append_nil]
      refine .finished fun x hx => ?_
      rw [ends_announce hsaid] at hx
      obtain ⟨entry, -, rfl⟩ := List.mem_map.1 hx
      exact ⟨entry, rfl⟩

/-- A frame is one flush, of what was pending and the frame. If that fails all of it stays pending. -/
theorem flushed_of_submit {frame : Frame} (hframe : Closed frame) {r : Except String Unit}
    (he : (w.submit frame).Ends h (r, w')) :
    ∃ outcome, Flushed { w with pending := w.pending ++ rawEvents frame } h outcome ∧
      (r, w') = match outcome with
        | .error reason => (.error reason, { w with pending := w.pending ++ rawEvents frame })
        | .ok after => (.ok (), after) := by
  obtain ⟨body, hbody, rfl⟩ := hframe
  have hraw : rawEvents (body ++ [.sync]) = rawEvents body := by simp [rawEvents, Event.raw?]
  rw [submit_body w hbody] at he
  rw [hraw]
  obtain ⟨_, outcome, rest, rfl, hflush, hrest⟩ := ends_bind.1 he
  refine ⟨outcome, ?_⟩
  cases outcome with
  | error reason | ok after =>
    obtain ⟨rfl, hr⟩ := ends_done.1 hrest
    rw [List.append_nil]
    exact ⟨ends_flush hflush, hr⟩

/-- A frame is one write: of what was pending and the frame. If it goes through nothing is pending any more, and else all
of it. -/
theorem ends_submit {frame : Frame} (hframe : Closed frame) {r : Except String Unit}
    (he : (w.submit frame).Ends h (r, w')) :
    h.filterMap written? = [w.pending ++ rawEvents frame] ∧
      ((r = .ok () ∧ w'.pending = []) ∨
        ((∃ reason, r = .error reason) ∧ w'.pending = w.pending ++ rawEvents frame)) := by
  obtain ⟨outcome, hflushed, hpair⟩ := flushed_of_submit hframe he
  cases hflushed with
  | unwritten reason | unfinished reason =>
    obtain ⟨rfl, rfl⟩ := Prod.mk.inj hpair
    exact ⟨rfl, .inr ⟨⟨reason, rfl⟩, rfl⟩⟩
  | @finished said hlogs =>
    obtain ⟨rfl, rfl⟩ := Prod.mk.inj hpair
    have hsaid : said.filterMap written? = [] := by
      rw [List.filterMap_eq_nil_iff]
      intro x hx
      obtain ⟨entry, hentry⟩ := hlogs x hx
      simp [written?, hentry]
    refine ⟨?_, .inl ⟨rfl, rfl⟩⟩
    change (w.pending ++ rawEvents frame) :: said.filterMap written? = _
    rw [hsaid]

/-- A device that was declared has a writer with nothing pending. -/
theorem ends_create {caps : Pen.Capabilities} (he : (create caps).Ends h (.ok w)) : w = {} := by
  obtain ⟨_, declared, rest, rfl, -, hrest⟩ := ends_bind.1 he
  rcases declared with reason | u
  · cases (ends_done.1 hrest).2
  · obtain ⟨_, name, _, rfl, -, hend⟩ := ends_bind.1 hrest
    cases name with
    | none => exact Except.ok.inj (ends_done.1 hend).2
    | some name =>
      obtain ⟨_, _, _, rfl, -, hlast⟩ := ends_bind.1 hend
      exact Except.ok.inj (ends_done.1 hlast).2

end Writer

/-! ## Many frames -/

/-- Frames submitted to a writer, each kept as it went. -/
abbrev Session (σ : Type) := Course interface Writer Frame (Except String Unit) σ

abbrev Submission := Called interface Writer Frame (Except String Unit)

def GoesThrough (k : Submission) : Prop :=
  k.result = .ok ()

/-- The frame was refused, and it had events. -/
def LeavesEvents (k : Submission) : Prop :=
  (∃ reason, k.result = .error reason) ∧ rawEvents k.operation ≠ []

/-- The events of the frames refused since one went through, in order. -/
def owed (calls : List Submission) : List RawEvent :=
  (calls.reverse.takeWhile fun k => !k.result.isOk).reverse.flatMap fun k => rawEvents k.operation

theorem owed_append (calls : List Submission) (k : Submission) :
    owed (calls ++ [k]) = if k.result.isOk then [] else owed calls ++ rawEvents k.operation := by
  unfold owed
  rw [List.reverse_append, List.reverse_singleton, List.singleton_append, List.takeWhile_cons]
  cases k.result.isOk <;> simp

/-- What a session keeps: pending is what is owed, and that is nothing unless a frame that was refused left events. -/
structure Batched {σ : Type} (s : Session σ) : Prop where
  pending : s.view.pending = owed s.calls
  owed_eq_nil_iff : owed s.calls = [] ↔ ¬Stands LeavesEvents GoesThrough s.calls

namespace Batched

variable {σ : Type} {s : Session σ}

theorem next (answer : Answerer interface σ) (hs : Batched s) {frame : Frame} (hframe : Closed frame) :
    Batched (s.next Writer.submit answer frame) := by
  let k : Submission := s.made Writer.submit answer frame
  have hcalls : (s.next Writer.submit answer frame).calls = s.calls ++ [k] := rfl
  obtain ⟨-, hends⟩ := Writer.ends_submit hframe (s.ends_made Writer.submit answer frame)
  change (k.result = .ok () ∧ k.after.pending = []) ∨
    (∃ reason, k.result = .error reason) ∧ k.after.pending = s.view.pending ++ rawEvents frame at hends
  rcases hends with ⟨hok, hpending⟩ | ⟨⟨reason, herror⟩, hpending⟩
  · have howed : owed (s.calls ++ [k]) = [] := by rw [owed_append, hok]; rfl
    have hnone : ¬LeavesEvents k := by
      rintro ⟨⟨reason, herror⟩, -⟩
      cases hok.symm.trans herror
    refine ⟨?_, ?_⟩
    · rw [hcalls, howed]
      exact hpending
    · rw [hcalls, howed, stands_append]
      simp [hnone, show GoesThrough k from hok]
  · have howed : owed (s.calls ++ [k]) = owed s.calls ++ rawEvents frame := by rw [owed_append, herror]; rfl
    have hnot : ¬GoesThrough k := fun hok => by cases hok.symm.trans herror
    have hleaves : LeavesEvents k ↔ rawEvents frame ≠ [] := ⟨fun h => h.2, fun h => ⟨⟨reason, herror⟩, h⟩⟩
    refine ⟨?_, ?_⟩
    · rw [hcalls, howed, ← hs.pending]
      exact hpending
    · rw [hcalls, howed, stands_append, List.append_eq_nil_iff, hs.owed_eq_nil_iff, hleaves]
      simp [hnot, and_comm]

theorem run (answer : Answerer interface σ) {frames : List Frame} (hframes : ∀ f ∈ frames, Closed f) (state : σ) :
    Batched (Course.run Writer.submit answer frames {} state) := by
  refine Course.always Writer.submit answer Batched ⟨rfl, ?_⟩ fun _ frame hframe hs => hs.next answer (hframes frame hframe)
  exact ⟨fun _ => not_stands_nil, fun _ => rfl⟩

end Batched

/-- Each write to a declared device, whatever the input layer refuses. Submitting a frame writes once: the events of all
frames that were refused since one went through, in order, and then those of the frame. So the write is the frame's own
exactly if no frame that was refused since then had events. -/
theorem write_of_every_frame {σ : Type} (answer : Answerer interface σ) (start : σ) {caps : Pen.Capabilities} {w : Writer}
    (hw : ((Writer.create caps).play answer start).result = .ok w) {frames : List Frame} (hframes : ∀ f ∈ frames, Closed f)
    {frame : Frame} (hframe : Closed frame) :
    let s : Session σ := Course.run Writer.submit answer frames w ((Writer.create caps).play answer start).state
    let written := (s.made Writer.submit answer frame).history.filterMap written?
    written = [owed s.calls ++ rawEvents frame] ∧
      (written = [rawEvents frame] ↔ ¬Stands LeavesEvents GoesThrough s.calls) := by
  intro s written
  have hcreate := Program.ends_play answer (Writer.create caps) start
  rw [hw] at hcreate
  obtain rfl := Writer.ends_create hcreate
  have hs : Batched s := .run answer hframes _
  have hwritten : written = [owed s.calls ++ rawEvents frame] := by
    rw [← hs.pending]
    exact (Writer.ends_submit hframe (s.ends_made Writer.submit answer frame)).1
  refine ⟨hwritten, ?_⟩
  rw [hwritten, ← hs.owed_eq_nil_iff]
  simp

/-- An input layer that fails the first write. -/
def busyDesk : Bench.Desk where
  inputLayer := { writeFailures := [some "busy"] }

/-- There the pen touches, which is refused, and lifts: the write for the lifting carries both. -/
theorem write_of_every_frame_busyDesk :
    let created := (Writer.create ⟨0, 0, 0, 0, 0, 0, 0, 0⟩).play Bench.Desk.answerUinput busyDesk
    let touch : Frame := [.key .touch true, .sync]
    let lift : Frame := [.key .touch false, .sync]
    created.result = .ok {} ∧ Closed touch ∧ Closed lift ∧
      let s : Session Bench.Desk := Course.run Writer.submit Bench.Desk.answerUinput [touch] {} created.state
      Stands LeavesEvents GoesThrough s.calls ∧
        (s.made Writer.submit Bench.Desk.answerUinput lift).history.filterMap written? = [[⟨1, 330, 1⟩, ⟨1, 330, 0⟩]] := by
  intro created touch lift
  have htouch : Closed touch := ⟨[.key .touch true], by decide, rfl⟩
  have hlift : Closed lift := ⟨[.key .touch false], by decide, rfl⟩
  have hcreated : created.result = .ok {} := by rfl
  refine ⟨hcreated, htouch, hlift, ?_⟩
  intro s
  have hframes : ∀ f ∈ [touch], Closed f := by simpa using htouch
  obtain ⟨hwritten, hown⟩ := write_of_every_frame Bench.Desk.answerUinput busyDesk hcreated hframes hlift
  have howed : owed s.calls = [⟨1, 330, 1⟩] := by decide
  rw [howed] at hwritten
  refine ⟨Classical.not_not.1 fun hnone => ?_, hwritten⟩
  rw [hwritten] at hown
  exact absurd (hown.2 hnone) (by decide)

/-- So a write does not always carry its own frame's events alone. -/
theorem not_always_own_events :
    ¬∀ (σ : Type) (answer : Answerer interface σ) (start : σ) (caps : Pen.Capabilities) (w : Writer),
      ((Writer.create caps).play answer start).result = .ok w → ∀ frames : List Frame, (∀ f ∈ frames, Closed f) →
        ∀ frame, Closed frame →
          let s : Session σ := Course.run Writer.submit answer frames w ((Writer.create caps).play answer start).state
          (s.made Writer.submit answer frame).history.filterMap written? = [rawEvents frame] := by
  intro h
  have htouch : Closed [.key .touch true, .sync] := ⟨[.key .touch true], by decide, rfl⟩
  have hlift : Closed [.key .touch false, .sync] := ⟨[.key .touch false], by decide, rfl⟩
  have hframes : ∀ f ∈ [[.key .touch true, .sync]], Closed f := by simpa using htouch
  have hown := h Bench.Desk Bench.Desk.answerUinput busyDesk ⟨0, 0, 0, 0, 0, 0, 0, 0⟩ {} (by rfl) _ hframes _ hlift
  exact absurd hown (by decide)

end PenRail.Uinput
