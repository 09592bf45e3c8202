import PenRail.Pen.Digitizer
import PenRail.Proofs.Course

/-!
# What a digitizer's operations can be

Each operation is taken apart once, here, whatever it is answered. `Notified` lists the five ways in which a data-ready
notification can go: masked, dropped, malformed, refused and delivered; only the last two move the latch on. Of the other
operations, `ends_call` says that they hand no frame over and leave the latch alone.
-/

namespace PenRail.Pen

open Program (ends_bind ends_done ends_request)

/-! ## Exchanges -/

/-- A report was asked for. -/
def asked (reply : Except Bus.Failure Bytes) : Exchange interface :=
  ⟨.transfer (.read reportLength), reply⟩

/-- A frame was handed to the consumer. -/
def handed (frame : Frame) (reply : Except String Unit) : Exchange interface :=
  ⟨.submit frame, reply⟩

/-- The transfer that was asked for. -/
def transfer? (x : Exchange interface) : Option Bus.Transfer :=
  match x.request with
  | .transfer t => some t
  | _ => none

/-- The bytes of a read that succeeded. -/
def report? (x : Exchange interface) : Option Bytes :=
  match x with
  | ⟨.transfer (.read _), .ok bytes⟩ => some bytes
  | _ => none

/-- The frame that was handed over, whether or not it was taken. -/
def submitted? (x : Exchange interface) : Option Frame :=
  match x.request with
  | .submit frame => some frame
  | _ => none

/-- The frame that was handed over and taken. -/
def accepted? (x : Exchange interface) : Option Frame :=
  match x with
  | ⟨.submit frame, .ok _⟩ => some frame
  | _ => none

/-! ## One operation -/

/-- How a data-ready notification can go. -/
inductive Notified (d : Digitizer) : History interface → Result Notification → Digitizer → Prop
  | masked (off : d.isDelivering = false) : Notified d [] (.ok .masked) d
  | dropped (on : d.isDelivering = true) (failure : Bus.Failure) :
      Notified d [asked (.error failure), ⟨.log ⟨.warn, "Dropping pen report: " ++ failure.message⟩, ()⟩] (.ok .dropped) d
  | malformed (on : d.isDelivering = true) {bytes : Bytes} {what : Malformed} (h : Sample.decode bytes = .error what) :
      Notified d [asked (.ok bytes)] (.error (.malformed what)) d
  | refused (on : d.isDelivering = true) {bytes : Bytes} {s : Sample} (h : Sample.decode bytes = .ok s) (reason : String) :
      Notified d [asked (.ok bytes), handed (d.latch.frame s) (.error reason)] (.error (.refused reason))
        { d with latch := d.latch.next s }
  | delivered (on : d.isDelivering = true) {bytes : Bytes} {s : Sample} (h : Sample.decode bytes = .ok s) :
      Notified d [asked (.ok bytes), handed (d.latch.frame s) (.ok ())] (.ok (.delivered s))
        { d with latch := d.latch.next s }

variable {d d' : Digitizer} {h : History interface}

theorem ends_transfer {t : Bus.Transfer} {reply : Except Bus.Failure t.Reply} :
    (transfer t).Ends h reply ↔ h = [⟨.transfer t, reply⟩] :=
  ends_request

theorem ends_submit {frame : Frame} {reply : Except String Unit} :
    (submit frame).Ends h reply ↔ h = [handed frame reply] :=
  ends_request

theorem ends_say {level : Log.Level} {text : String} {u : Unit} :
    (say level text).Ends h u ↔ h = [⟨.log ⟨level, text⟩, ()⟩] :=
  ends_request

/-- A digitizer that was probed is closed, and has seen nothing. -/
theorem ends_probe (he : Digitizer.probe.Ends h (.ok d)) : ∃ capabilities, d = { capabilities } := by
  obtain ⟨_, reply, rest, rfl, -, hrest⟩ := ends_bind.1 he
  rcases reply with failure | bytes
  · cases (ends_done.1 hrest).2
  · dsimp only at hrest
    cases hdecode : Capabilities.decode bytes with
    | error what =>
      rw [hdecode] at hrest
      cases (ends_done.1 hrest).2
    | ok capabilities =>
      rw [hdecode] at hrest
      obtain ⟨_, _, _, rfl, -, hend⟩ := ends_bind.1 hrest
      exact ⟨capabilities, Except.ok.inj (ends_done.1 hend).2⟩

theorem ends_deliver {s : Sample} {r : Result Notification} (he : (d.deliver s).Ends h (r, d')) :
    ∃ reply, h = [handed (d.latch.frame s) reply] ∧
      r = (match reply with | .error reason => .error (.refused reason) | .ok () => .ok (.delivered s)) ∧
      d' = { d with latch := d.latch.next s } := by
  simp only [Digitizer.deliver, ends_bind, ends_submit] at he
  obtain ⟨_, reply, rest, rfl, rfl, he⟩ := he
  cases reply with
  | error reason =>
    obtain ⟨rfl, hr⟩ := ends_done.1 he
    obtain ⟨rfl, rfl⟩ := Prod.mk.inj hr
    exact ⟨.error reason, rfl, rfl, rfl⟩
  | ok u =>
    obtain ⟨rfl, hr⟩ := ends_done.1 he
    obtain ⟨rfl, rfl⟩ := Prod.mk.inj hr
    exact ⟨.ok u, rfl, rfl, rfl⟩

theorem ends_notify {r : Result Notification} (he : d.notify.Ends h (r, d')) : Notified d h r d' := by
  unfold Digitizer.notify at he
  cases hd : d.isDelivering with
  | false =>
    rw [hd] at he
    obtain ⟨rfl, hr⟩ := ends_done.1 he
    obtain ⟨rfl, rfl⟩ := Prod.mk.inj hr
    exact .masked hd
  | true =>
    rw [hd] at he
    obtain ⟨_, reply, rest, rfl, hasked, hrest⟩ := ends_bind.1 he
    obtain rfl := ends_transfer.1 hasked
    rcases reply with failure | bytes
    · obtain ⟨_, _, _, rfl, hsaid, hend⟩ := ends_bind.1 hrest
      obtain rfl := ends_say.1 hsaid
      obtain ⟨rfl, hr⟩ := ends_done.1 hend
      obtain ⟨rfl, rfl⟩ := Prod.mk.inj hr
      exact .dropped hd failure
    · dsimp only at hrest
      cases hdecode : Sample.decode bytes with
      | error what =>
        rw [hdecode] at hrest
        obtain ⟨rfl, hr⟩ := ends_done.1 hrest
        obtain ⟨rfl, rfl⟩ := Prod.mk.inj hr
        exact .malformed hd hdecode
      | ok s =>
        rw [hdecode] at hrest
        obtain ⟨reply, rfl, rfl, rfl⟩ := ends_deliver hrest
        rcases reply with reason | u
        · exact .refused hd hdecode reason
        · exact .delivered hd hdecode

theorem ends_readSample {r : Result Sample} (he : Digitizer.readSample.Ends h r) :
    ∃ reply, h = [asked reply] ∧ r = (match reply with
      | .error failure => .error (.bus failure)
      | .ok bytes => (Sample.decode bytes).mapError .malformed) := by
  obtain ⟨_, reply, rest, rfl, hasked, hrest⟩ := ends_bind.1 he
  obtain rfl := ends_transfer.1 hasked
  rcases reply with failure | bytes
  · obtain ⟨rfl, rfl⟩ := ends_done.1 hrest
    exact ⟨.error failure, rfl, rfl⟩
  · obtain ⟨rfl, rfl⟩ := ends_done.1 hrest
    exact ⟨.ok bytes, rfl, rfl⟩

/-- The digitizer after an operation that only opens, closes, suspends or resumes it; the others leave it as it is. -/
def Digitizer.gated (d : Digitizer) : Method → Digitizer
  | .openDevice => { d with opened := true }
  | .closeDevice => { d with opened := false }
  | .suspend => { d with suspended := true }
  | .resume => { d with suspended := false }
  | .capabilities | .readSample | .notify => d

theorem Digitizer.gated_latch (d : Digitizer) (m : Method) : (d.gated m).latch = d.latch := by
  cases m <;> rfl

/-- An operation is a notification, or it does no more than set the two gates and ask for reports. -/
theorem ends_call {m : Method} {r : Result Answer} (he : (d.call m).Ends h (r, d')) :
    (m = .notify ∧ ∃ what, r = what.map .notification ∧ Notified d h what d') ∨
      (m ≠ .notify ∧ (∀ what, r ≠ .ok (.notification what)) ∧ d' = d.gated m ∧ ∀ x ∈ h, ∃ reply, x = asked reply) := by
  cases m with
  | notify =>
    obtain ⟨_, ⟨what, after⟩, _, rfl, hnotify, hend⟩ := ends_bind.1 he
    obtain ⟨rfl, hr⟩ := ends_done.1 hend
    obtain ⟨rfl, rfl⟩ := Prod.mk.inj hr
    rw [List.append_nil]
    exact .inl ⟨rfl, what, rfl, ends_notify hnotify⟩
  | readSample =>
    obtain ⟨_, sample, _, rfl, hread, hend⟩ := ends_bind.1 he
    obtain ⟨rfl, hr⟩ := ends_done.1 hend
    obtain ⟨rfl, rfl⟩ := Prod.mk.inj hr
    obtain ⟨reply, rfl, -⟩ := ends_readSample hread
    refine .inr ⟨nofun, fun what => ?_, rfl, fun x hx => ⟨reply, List.mem_singleton.1 hx⟩⟩
    cases sample <;> simp [Except.map]
  | openDevice | closeDevice | suspend | resume | capabilities =>
    obtain ⟨rfl, hr⟩ := ends_done.1 he
    obtain ⟨rfl, rfl⟩ := Prod.mk.inj hr
    exact .inr ⟨nofun, by simp, rfl, nofun⟩

end PenRail.Pen
