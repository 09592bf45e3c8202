import PenRail.Proofs.Uinput.RefusedBatches

/-!
# Batches of a stream

Events reach a writer in lists, but what it makes of them is cut at each `sync`, wherever the lists begin and end: as long as
the input layer takes everything, the batches are those of the one stream that the lists are when put together (`Cut`). What
it says on the way hangs on the number of frames that were finished and on nothing else, also where the input layer refuses.
`batches_of_stream` says both, for every session of a device that was declared.
-/

namespace PenRail.Uinput

open Pen (Event Frame RawEvent)
open Program (ends_bind ends_done)

/-! ## Streams and their batches -/

/-- The stream is its batches, each with the `sync` that closes it, and a rest that none closes. -/
structure Cut (stream : Frame) (batches : List Frame) (rest : Frame) : Prop where
  eq : stream = batches.flatMap (· ++ [.sync]) ++ rest
  batch : ∀ b ∈ batches, .sync ∉ b
  rest : .sync ∉ rest

namespace Cut

variable {stream more rest rest' : Frame} {batches batches' : List Frame}

theorem of_not_mem (h : .sync ∉ stream) : Cut stream [] stream where
  eq := rfl
  batch := nofun
  rest := h

/-- A `sync` closes the batch before it. -/
theorem closed (hbody : .sync ∉ stream) (h : Cut more batches rest) :
    Cut (stream ++ .sync :: more) (stream :: batches) rest where
  eq := by simp [h.eq]
  batch := List.forall_mem_cons.2 ⟨hbody, h.batch⟩
  rest := h.rest

/-- A longer stream is cut where the shorter one is, and then from its rest on. -/
theorem append (h : Cut stream batches rest) (hmore : Cut (rest ++ more) batches' rest') :
    Cut (stream ++ more) (batches ++ batches') rest' where
  eq := by
    rw [h.eq, List.append_assoc, hmore.eq, List.flatMap_append, List.append_assoc]
  batch := List.forall_mem_append.2 ⟨h.batch, hmore.batch⟩
  rest := hmore.rest

theorem splitOn_eq (h : Cut stream batches rest) : stream.splitOn .sync = batches ++ [rest] := by
  obtain ⟨rfl, hbatch, hrest⟩ := h
  induction batches with
  | nil => exact List.splitOn_eq_singleton hrest
  | cons b batches ih =>
    obtain ⟨hb, hbatches⟩ := List.forall_mem_cons.1 hbatch
    have hstream : (b :: batches).flatMap (· ++ [Event.sync]) ++ rest =
        b ++ .sync :: (batches.flatMap (· ++ [.sync]) ++ rest) := by simp
    rw [hstream, List.splitOn_append_cons_self_of_not_mem hb, ih hbatches, List.cons_append]

/-- There is one way to cut a stream. -/
theorem unique (h : Cut stream batches rest) (h' : Cut stream batches' rest') : batches = batches' ∧ rest = rest' := by
  have heq := h.splitOn_eq.symm.trans h'.splitOn_eq
  obtain ⟨hbatches, hrest⟩ := List.append_inj' heq rfl
  exact ⟨hbatches, (List.cons.inj hrest).1⟩

/-- Behind a `sync` nothing is open. -/
theorem rest_eq_nil (h : Cut stream batches rest) (hlast : stream = [] ∨ stream.getLast? = some .sync) : rest = [] := by
  rcases rest.eq_nil_or_concat with hnil | ⟨front, e, rfl⟩
  · exact hnil
  · obtain ⟨heq, -, hrest⟩ := h
    rcases hlast with hnil | hlast
    · simp [hnil] at heq
    · rw [heq, List.concat_eq_append, ← List.append_assoc, List.getLast?_concat] at hlast
      obtain rfl := Option.some.inj hlast
      exact absurd (by simp) hrest

end Cut

/-! ## One batch -/

variable {h : History interface}

/-- A frame that was finished, with what is said then. -/
def milestone (n : Nat) : History interface :=
  ⟨.call .finish, .ok ()⟩ :: (announcements (n + 1)).map said

theorem ends_flush_ok {w w' : Writer} (he : w.flush.Ends h (.ok w')) :
    w' = ⟨[], w.finished + 1⟩ ∧ h = ⟨.call (.write w.pending), .ok ()⟩ :: milestone w.finished := by
  obtain ⟨_, wrote, rest, rfl, hwrite, hrest⟩ := ends_bind.1 he
  obtain rfl := Writer.ends_call.1 hwrite
  rcases wrote with reason | u
  · cases (ends_done.1 hrest).2
  · obtain ⟨_, done, _, rfl, hfinish, hend⟩ := ends_bind.1 hrest
    obtain rfl := Writer.ends_call.1 hfinish
    rcases done with reason | u
    · cases (ends_done.1 hend).2
    · obtain ⟨_, _, _, rfl, hsaid, hlast⟩ := ends_bind.1 hend
      obtain ⟨rfl, hr⟩ := ends_done.1 hlast
      rw [ends_announce hsaid, List.append_nil]
      exact ⟨Except.ok.inj hr, rfl⟩

/-! ## One submission -/

/-- How events are taken, one after the other. -/
inductive Submitted : Writer → Frame → History interface → Except String Unit → Writer → Prop
  | nothing (w : Writer) : Submitted w [] [] (.ok ()) w
  | kept {w w' : Writer} {e : Event} {raw : RawEvent} {rest : Frame} {h : History interface} {r : Except String Unit}
      (hraw : e.raw? = some raw) :
      Submitted { w with pending := w.pending ++ [raw] } rest h r w' → Submitted w (e :: rest) h r w'
  | finished {w w' : Writer} {rest : Frame} {h : History interface} {r : Except String Unit} :
      Submitted ⟨[], w.finished + 1⟩ rest h r w' →
        Submitted w (.sync :: rest) (⟨.call (.write w.pending), .ok ()⟩ :: milestone w.finished ++ h) r w'
  | unwritten (w : Writer) (rest : Frame) (reason : String) :
      Submitted w (.sync :: rest) [⟨.call (.write w.pending), .error reason⟩] (.error reason) w
  | unfinished (w : Writer) (rest : Frame) (reason : String) :
      Submitted w (.sync :: rest) [⟨.call (.write w.pending), .ok ()⟩, ⟨.call .finish, .error reason⟩] (.error reason) w

theorem eq_sync_of_raw? {e : Event} (h : e.raw? = none) : e = .sync := by
  cases e with
  | key | axis => cases h
  | sync => rfl

theorem submitted {w w' : Writer} {frame : Frame} {r : Except String Unit} (he : (w.submit frame).Ends h (r, w')) :
    Submitted w frame h r w' := by
  induction frame generalizing w h with
  | nil =>
    obtain ⟨rfl, hr⟩ := ends_done.1 he
    obtain ⟨rfl, rfl⟩ := Prod.mk.inj hr
    exact .nothing _
  | cons e rest ih =>
    rw [Writer.submit] at he
    cases hraw : e.raw? with
    | some raw =>
      rw [hraw] at he
      exact .kept hraw (ih he)
    | none =>
      rw [hraw] at he
      obtain rfl := eq_sync_of_raw? hraw
      obtain ⟨_, outcome, _, rfl, hflush, hrest⟩ := ends_bind.1 he
      cases outcome with
      | ok after =>
        obtain ⟨rfl, rfl⟩ := ends_flush_ok hflush
        exact .finished (ih hrest)
      | error reason =>
        obtain ⟨rfl, hr⟩ := ends_done.1 hrest
        obtain ⟨rfl, rfl⟩ := Prod.mk.inj hr
        rw [List.append_nil]
        cases Writer.ends_flush hflush with
        | unwritten => exact .unwritten _ rest reason
        | unfinished => exact .unfinished _ rest reason

/-- The input layer did not take a call. -/
def refused : Exchange interface → Bool
  | ⟨.call _, .error _⟩ => true
  | _ => false

/-- A call to the input layer, whether or not it succeeded. -/
def call? (x : Exchange interface) : Option Call :=
  match x.request with
  | .call c => some c
  | _ => none

/-- What a batch is to the input layer. -/
def delivery (batch : Frame) : List Call :=
  [.write (rawEvents batch), .finish]

theorem call?_milestone (n : Nat) : (milestone n).filterMap call? = [.finish] := by
  have hsaid : ((announcements (n + 1)).map said).filterMap call? = [] := by
    rw [List.filterMap_eq_nil_iff]
    intro x hx
    obtain ⟨entry, -, rfl⟩ := List.mem_map.1 hx
    rfl
  change Call.finish :: ((announcements (n + 1)).map said).filterMap call? = _
  rw [hsaid]

/-- The input layer took a frame, whatever was said then. -/
def completes : Exchange interface → Bool
  | ⟨.call .finish, .ok _⟩ => true
  | _ => false

/-- A frame that was finished, or an entry in the log. -/
def isTold : Exchange interface → Bool
  | ⟨.call .finish, .ok _⟩ | ⟨.log _, _⟩ => true
  | _ => false

theorem isTold_milestone (n : Nat) : (milestone n).filter isTold = milestone n := by
  rw [List.filter_eq_self]
  intro x hx
  rcases List.mem_cons.1 hx with rfl | hx
  · rfl
  · obtain ⟨entry, -, rfl⟩ := List.mem_map.1 hx
    rfl

theorem completes_milestone (n : Nat) : (milestone n).countP completes = 1 := by
  have hsaid : ((announcements (n + 1)).map said).countP completes = 0 := by
    rw [List.countP_eq_zero]
    intro x hx
    obtain ⟨entry, -, rfl⟩ := List.mem_map.1 hx
    exact Bool.false_ne_true
  rw [milestone, List.countP_cons_of_pos rfl, hsaid]

namespace Submitted

variable {w w' : Writer} {frame : Frame} {r : Except String Unit}

/-- What fails, fails because the input layer refused. -/
theorem ok_of_not_refused (hs : Submitted w frame h r w') (hworks : ∀ x ∈ h, refused x = false) : r = .ok () := by
  induction hs with
  | nothing => rfl
  | kept _ _ ih => exact ih hworks
  | finished _ ih => exact ih fun x hx => hworks x (List.mem_append_right _ hx)
  | unwritten w rest reason => exact nomatch hworks _ List.mem_cons_self
  | unfinished w rest reason => exact nomatch hworks _ (List.mem_cons_of_mem _ List.mem_cons_self)

/-- A submission that goes through delivers what its events close, in front of them what was held, and holds the rest. -/
theorem delivers (hs : Submitted w frame h r w') (hr : r = .ok ()) {held : Frame} (hheld : .sync ∉ held)
    (hpending : w.pending = rawEvents held) :
    ∃ batches rest, Cut (held ++ frame) batches rest ∧ h.filterMap call? = batches.flatMap delivery ∧
      w'.pending = rawEvents rest := by
  -- On the way, `held` grows by each event that is kept and starts again from nothing behind each `sync`.
  induction hs generalizing held with
  | nothing w =>
    refine ⟨[], held, ?_, rfl, hpending⟩
    rw [List.append_nil]
    exact .of_not_mem hheld
  | @kept w w' e raw rest h r hraw _ ih =>
    have hne : e ≠ .sync := by
      rintro rfl
      cases hraw
    have hheld' : .sync ∉ held ++ [e] := by simp [hheld, hne.symm]
    have hpending' : w.pending ++ [raw] = rawEvents (held ++ [e]) := by simp [hpending, rawEvents, hraw]
    obtain ⟨batches, rest', hcut, hcalls, hrest⟩ := ih hr hheld' hpending'
    rw [List.append_assoc] at hcut
    exact ⟨batches, rest', hcut, hcalls, hrest⟩
  | @finished w w' rest h r _ ih =>
    have hnone : .sync ∉ ([] : Frame) := List.not_mem_nil
    obtain ⟨batches, rest', hcut, hcalls, hrest⟩ := ih hr hnone rfl
    refine ⟨held :: batches, rest', hcut.closed hheld, ?_, hrest⟩
    have hwrite : (⟨.call (.write w.pending), .ok ()⟩ :: milestone w.finished ++ h : History interface).filterMap call? =
        .write w.pending :: ((milestone w.finished).filterMap call? ++ h.filterMap call?) := by
      rw [List.cons_append, List.filterMap_cons, List.filterMap_append]
      rfl
    rw [hwrite, call?_milestone, hcalls, hpending]
    rfl
  | unwritten | unfinished => cases hr

/-- The frames that a submission finishes are counted on, and each is told of with what is said then. -/
theorem tells (hs : Submitted w frame h r w') :
    ∃ n, w'.finished = w.finished + n ∧ h.countP completes = n ∧
      h.filter isTold = (List.range' w.finished n).flatMap milestone := by
  induction hs with
  | nothing => exact ⟨0, rfl, rfl, rfl⟩
  | kept _ _ ih => exact ih
  | @finished w w' rest h r _ ih =>
    obtain ⟨n, hfinished, hcount, htold⟩ := ih
    refine ⟨n + 1, ?_, ?_, ?_⟩
    · rw [hfinished, Nat.add_assoc, Nat.add_comm 1 n]
    · rw [List.cons_append, List.countP_cons_of_neg (by exact Bool.false_ne_true), List.countP_append, completes_milestone,
        hcount, Nat.add_comm]
    · rw [List.cons_append, List.filter_cons_of_neg (by exact Bool.false_ne_true), List.filter_append, isTold_milestone,
        htold, List.range'_succ, List.flatMap_cons]
  | unwritten | unfinished => exact ⟨0, rfl, rfl, rfl⟩

/-- Each frame that a submission finishes has a `sync` of its own. -/
theorem finished_le (hs : Submitted w frame h r w') : w'.finished ≤ w.finished + frame.count .sync := by
  induction hs with
  | nothing | unwritten | unfinished => exact Nat.le_add_right _ _
  | @kept w w' e _ rest h r _ _ ih => exact Nat.le_trans ih (Nat.add_le_add_left List.count_le_count_cons _)
  | @finished w w' rest h r _ ih =>
    change w'.finished ≤ w.finished + 1 + rest.count .sync at ih
    rw [List.count_cons_self]
    omega

end Submitted

/-! ## Many submissions -/

/-- The events of a session so far, as one stream. -/
def streamed {σ : Type} (s : Session σ) : Frame :=
  s.calls.flatMap Called.operation

/-- What a session keeps while all goes through: the batches of its stream have been delivered, and the rest is pending. -/
def Delivered {σ : Type} (s : Session σ) : Prop :=
  ∃ batches rest, Cut (streamed s) batches rest ∧ s.exchanged.filterMap call? = batches.flatMap delivery ∧
    s.view.pending = rawEvents rest

/-- What a session keeps in any case: the frames that were finished are counted, and told of one after the other. -/
structure Told {σ : Type} (s : Session σ) : Prop where
  count : s.exchanged.countP completes = s.view.finished
  told : s.exchanged.filter isTold = (List.range s.view.finished).flatMap milestone

section
variable {σ : Type} (answer : Answerer interface σ) {s : Session σ}

theorem streamed_next (frame : Frame) : streamed (s.next Writer.submit answer frame) = streamed s ++ frame := by
  simp [streamed]

theorem submitted_made (frame : Frame) :
    Submitted s.view frame (s.made Writer.submit answer frame).history (s.made Writer.submit answer frame).result
      (s.next Writer.submit answer frame).view :=
  submitted (s.ends_made Writer.submit answer frame)

theorem Delivered.next (hs : Delivered s) {frame : Frame} (hok : (s.made Writer.submit answer frame).result = .ok ()) :
    Delivered (s.next Writer.submit answer frame) := by
  obtain ⟨batches, held, hcut, hcalls, hpending⟩ := hs
  obtain ⟨batches', rest, hmore, hcalls', hrest⟩ := (submitted_made answer frame).delivers hok hcut.rest hpending
  refine ⟨batches ++ batches', rest, ?_, ?_, hrest⟩
  · rw [streamed_next]
    exact hcut.append hmore
  · rw [Course.exchanged_next, List.filterMap_append, hcalls, hcalls', List.flatMap_append]

theorem Told.next (hs : Told s) (frame : Frame) : Told (s.next Writer.submit answer frame) := by
  obtain ⟨n, hfinished, hcount, htold⟩ := (submitted_made answer frame).tells
  refine ⟨?_, ?_⟩
  · rw [Course.exchanged_next, List.countP_append, hs.count, hcount, hfinished]
  · rw [Course.exchanged_next, List.filter_append, hs.told, htold, hfinished, List.range_eq_range', List.range_eq_range',
      ← List.flatMap_append, ← List.range'_append_1, Nat.zero_add]

end

section
variable {σ : Type} (answer : Answerer interface σ) (frames : List Frame) (state : σ)

theorem streamed_run : streamed (Course.run Writer.submit answer frames {} state) = frames.flatten := by
  have hoperations := Course.operations_run Writer.submit answer frames {} state
  rw [streamed, List.flatMap_def, hoperations]

theorem Told.run : Told (Course.run Writer.submit answer frames {} state) :=
  Course.always Writer.submit answer Told ⟨rfl, rfl⟩ fun _ frame _ hs => hs.next answer frame

/-- No more frames are finished than the stream has `sync`s. -/
theorem finished_run_le :
    (Course.run Writer.submit answer frames {} state).view.finished ≤ frames.flatten.count .sync := by
  let holds (s : Session σ) : Prop := s.view.finished ≤ (streamed s).count .sync
  rw [← streamed_run answer frames state]
  refine Course.always Writer.submit answer holds (Nat.zero_le _) fun s frame _ hs => ?_
  have hle : (s.next Writer.submit answer frame).view.finished ≤ s.view.finished + frame.count .sync :=
    (submitted_made answer frame).finished_le
  change s.view.finished ≤ (streamed s).count .sync at hs
  change _ ≤ (streamed (s.next Writer.submit answer frame)).count .sync
  rw [streamed_next, List.count_append]
  omega

/-- As long as every submission goes through. -/
theorem Delivered.run (hok : ∀ k ∈ (Course.run Writer.submit answer frames {} state).calls, k.result = .ok ()) :
    Delivered (Course.run Writer.submit answer frames {} state) := by
  -- A submission that fails ends the batching for good, so that none has failed is carried along as a premise.
  let holds (s : Session σ) : Prop := (∀ k ∈ s.calls, k.result = .ok ()) → Delivered s
  have hstart : holds { view := {}, state } := fun _ => ⟨[], [], .of_not_mem List.not_mem_nil, rfl, rfl⟩
  refine Course.always Writer.submit answer holds hstart ?_ hok
  intro s frame _ hs hok
  rw [Course.next_calls, List.forall_mem_append, List.forall_mem_singleton] at hok
  exact (hs hok.1).next answer hok.2

theorem ok_run (hworks : ∀ x ∈ (Course.run Writer.submit answer frames {} state).exchanged, refused x = false) :
    ∀ k ∈ (Course.run Writer.submit answer frames {} state).calls, k.result = .ok () := by
  intro k hk
  let went (k : Submission) : Prop := Submitted k.before k.operation k.history k.result k.after
  have hwent : went k := Course.forall_calls_run Writer.submit answer went
    (fun c frame => submitted (c.ends_made Writer.submit answer frame)) frames {} state k hk
  refine hwent.ok_of_not_refused fun x hx => ?_
  exact hworks x (List.mem_flatMap.2 ⟨k, hk, hx⟩)

end

/-- Events given to a declared device in lists, whatever is in each. As long as the input layer refuses nothing, every
submission goes through, and what the input layer is called for is one write and one finish for each batch of the stream
that the lists are when put together, in order; what comes behind the last `sync` stays pending. So another session over the
same stream, cut into other lists, makes the same calls. And whatever the input layer refuses, the frames it has finished
and the entries in the log are one sequence: the log speaks of the first frame when that is finished, of every five
hundredth when that is, and of nothing else. Each frame that is finished has a `sync` of its own. -/
theorem batches_of_stream {σ : Type} (answer : Answerer interface σ) (start : σ) {caps : Pen.Capabilities} {w : Writer}
    (hw : ((Writer.create caps).play answer start).result = .ok w) (frames : List Frame) :
    let s : Session σ := Course.run Writer.submit answer frames w ((Writer.create caps).play answer start).state
    ((∀ x ∈ s.exchanged, refused x = false) →
        (∀ k ∈ s.calls, k.result = .ok ()) ∧
          (∃ batches rest, Cut frames.flatten batches rest ∧ s.exchanged.filterMap call? = batches.flatMap delivery ∧
            s.view.pending = rawEvents rest) ∧
          ∀ (τ : Type) (other : Answerer interface τ) (state : τ) (frames' : List Frame), frames'.flatten = frames.flatten →
            let s' : Session τ := Course.run Writer.submit other frames' w state
            (∀ x ∈ s'.exchanged, refused x = false) → s'.exchanged.filterMap call? = s.exchanged.filterMap call?) ∧
      s.exchanged.filter isTold = (List.range (s.exchanged.countP completes)).flatMap milestone ∧
      s.exchanged.countP completes ≤ frames.flatten.count .sync := by
  intro s
  have hcreate := Program.ends_play answer (Writer.create caps) start
  rw [hw] at hcreate
  obtain rfl := Writer.ends_create hcreate
  have htold : Told s := .run answer frames _
  refine ⟨fun hworks => ?_, by rw [htold.count, htold.told], htold.count ▸ finished_run_le answer frames _⟩
  have hok := ok_run answer frames _ hworks
  obtain ⟨batches, rest, hcut, hcalls, hrest⟩ := Delivered.run answer frames _ hok
  rw [streamed_run] at hcut
  refine ⟨hok, ⟨batches, rest, hcut, hcalls, hrest⟩, ?_⟩
  intro τ other state frames' hflatten s' hworks'
  obtain ⟨batches', rest', hcut', hcalls', -⟩ := Delivered.run other frames' state (ok_run other frames' state hworks')
  rw [streamed_run, hflatten] at hcut'
  rw [hcalls, hcalls', (hcut'.unique hcut).1]

/-- Two lists of which neither is a frame. The first `sync` closes what the first list left, the second one nothing; what comes
behind it is held back. -/
theorem batches_of_stream_ragged :
    let created := (Writer.create ⟨0, 0, 0, 0, 0, 0, 0, 0⟩).play Bench.Desk.answerUinput {}
    let frames : List Frame := [[.key .touch true, .axis .x 5], [.sync, .sync, .key .touch false]]
    created.result = .ok {} ∧
      let s : Session Bench.Desk := Course.run Writer.submit Bench.Desk.answerUinput frames {} created.state
      (∀ x ∈ s.exchanged, refused x = false) ∧
        s.exchanged.filterMap call? = [.write [⟨1, 330, 1⟩, ⟨3, 0, 5⟩], .finish, .write [], .finish] ∧
        s.view.pending = [⟨1, 330, 0⟩] ∧
        s.exchanged.filter isTold =
          [⟨.call .finish, .ok ()⟩, said ⟨.info, "Pen events flowing"⟩, ⟨.call .finish, .ok ()⟩] := by
  intro created frames
  have hcreated : created.result = .ok {} := by rfl
  refine ⟨hcreated, ?_⟩
  intro s
  obtain ⟨hdelivered, htold, -⟩ := batches_of_stream Bench.Desk.answerUinput {} hcreated frames
  have hworks : ∀ x ∈ s.exchanged, refused x = false := by decide
  obtain ⟨-, ⟨batches, rest, hcut, hcalls, hpending⟩, -⟩ := hdelivered hworks
  have hknown : Cut frames.flatten [[.key .touch true, .axis .x 5], []] [.key .touch false] := ⟨rfl, by decide, by decide⟩
  obtain ⟨rfl, rfl⟩ := hcut.unique hknown
  have hfinished : s.exchanged.countP completes = 2 := by decide
  rw [hfinished] at htold
  exact ⟨hworks, hcalls, hpending, htold⟩

end PenRail.Uinput
