import PenRail.Proofs.Command.Deeds
import PenRail.Proofs.Command.Tasks
import PenRail.Proofs.Lengths
import PenRail.Proofs.Pen.ToolLatch
import PenRail.Proofs.Uinput.RefusedBatches

/-!
# Looking for reports

The command that forwards the pen looks for a report again and again. `Looked` lists the ways in which one look can go, as the
machine sees it: none is there yet, the data-ready line cannot be read, the report cannot be fetched, or it is fetched and its
frame is written. `ends_round` says that a round of the command is one look, which fails exactly if the line or the device
does, and that the frames written are those of the tool latch over the reports that were fetched. `ends_rounds` is the induction
over the rounds.
-/

namespace PenRail

open Config (DigitizerSettings)
open Pen (Latch RawEvent Sample)
open Program (ends_bind ends_done ends_request ends_under ends_underState unfoldsFrom_cons unfoldsFrom_nil)
open Uinput (rawEvents)

/-! ## Reports and writes -/

namespace Host

/-- The report that a read has brought, as its buffer holds it. -/
def report? : Exchange interface → Option Bytes
  | ⟨.transfer _ ⟨_, .read length⟩, .ok raw⟩ => some (Bus.fit length raw)
  | _ => none

/-- The events of a write to the virtual device, whether or not it succeeded. -/
def written? (x : Exchange interface) : Option (List RawEvent) :=
  match x.request with
  | .uinput (.write events) => some events
  | _ => none

end Host

namespace Command

/-- The reports that were fetched can be understood, and what was written are the frames of the tool latch over them, in
order. -/
def Relays (before : Latch) (h : History Host.interface) (after : Latch) : Prop :=
  ∃ samples, (h.filterMap Host.report?).map Sample.decode = samples.map .ok ∧
    h.filterMap Host.written? = (before.frames samples).map (fun frame => rawEvents frame.1) ∧ after = before.after samples

theorem Relays.nothing (l : Latch) {h : History Host.interface} (hreport : h.filterMap Host.report? = [])
    (hwritten : h.filterMap Host.written? = []) : Relays l h l :=
  ⟨[], by rw [hreport]; rfl, hwritten, rfl⟩

theorem Relays.append {l l' l'' : Latch} {h later : History Host.interface} (hl : Relays l h l')
    (hlater : Relays l' later l'') : Relays l (h ++ later) l'' := by
  obtain ⟨samples, hdecode, hwritten, rfl⟩ := hl
  obtain ⟨samplesLater, hdecodeLater, hwrittenLater, rfl⟩ := hlater
  refine ⟨samples ++ samplesLater, ?_, ?_, ?_⟩
  · rw [List.filterMap_append, List.map_append, hdecode, hdecodeLater, List.map_append]
  · rw [List.filterMap_append, hwritten, hwrittenLater, Latch.frames_append, List.map_append]
  · rw [Latch.after_append]

/-! ## One look -/

/-- What tells that a report may be there: the line is low, or without a line an interval is over. -/
def notice (s : DigitizerSettings) : Exchange Host.interface :=
  match s.irqLine with
  | some line => ⟨.readLine line, .ok false⟩
  | none => ⟨.sleep (s.pollInterval.toNat * Rail.millisecond), ()⟩

/-- A report was fetched from the digitizer, or was to be. -/
def fetched (s : DigitizerSettings) (reply : Except Bus.Cause Bytes) : Exchange Host.interface :=
  ⟨.transfer s.bus ⟨s.address.toUInt8, .read 22⟩, reply⟩

/-- How a batch of events can go to the virtual device: one write, and one finish if that succeeded. -/
inductive Written (events : List RawEvent) : History Host.interface → Except String Unit → Prop
  | unwritten (reason : String) : Written events [⟨.uinput (.write events), .error reason⟩] (.error reason)
  | unfinished (reason : String) :
      Written events [⟨.uinput (.write events), .ok ()⟩, ⟨.uinput .finish, .error reason⟩] (.error reason)
  | finished : Written events [⟨.uinput (.write events), .ok ()⟩, ⟨.uinput .finish, .ok ()⟩] (.ok ())

/-- How one look for a report can go, and whether there is another after it. -/
inductive Looked (s : DigitizerSettings) : Bool → History Host.interface → Prop
  /-- The line is high, and an interval is waited for. -/
  | notYet {line : UInt64} (hline : s.irqLine = some line) :
      Looked s true [⟨.readLine line, .ok true⟩, ⟨.sleep (s.pollInterval.toNat * Rail.millisecond), ()⟩]
  | lineLost {line : UInt64} (hline : s.irqLine = some line) (reason : String) :
      Looked s false [⟨.readLine line, .error reason⟩]
  | dropped (cause : Bus.Cause) : Looked s true [notice s, fetched s (.error cause)]
  | taken (raw : Bytes) {events : List RawEvent} {batch : History Host.interface} {reply : Except String Unit}
      (written : Written events batch reply) : Looked s reply.isOk (notice s :: fetched s (.ok raw) :: batch)

/-! ## Below the digitizer -/

variable {h : History interface} {place : Place} {w w' : Uinput.Writer}

theorem deeds_forwarderTransfer {t : Bus.Transfer} {reply : Except Bus.Failure t.Reply}
    (he : ((place.answerForwarder (.transfer t)).run w).Ends h (reply, w')) :
    ∃ raw, deeds h = [⟨.transfer place.path ⟨place.address, t⟩, raw⟩] ∧ reply = t.received raw ∧ w' = w := by
  obtain ⟨_, received, _, rfl, htransfer, hend⟩ := ends_bind.1 he
  obtain ⟨rfl, hpair⟩ := ends_done.1 hend
  obtain ⟨rfl, rfl⟩ := Prod.mk.inj hpair
  obtain ⟨raw, rfl, rfl⟩ := ends_transfer htransfer
  exact ⟨raw, rfl, rfl, rfl⟩

theorem deeds_forwarderLog {entry : Log.Entry} {u : Unit} (he : ((place.answerForwarder (.log entry)).run w).Ends h (u, w')) :
    deeds h = [] ∧ w' = w := by
  obtain ⟨_, _, _, rfl, hlog, hend⟩ := ends_bind.1 he
  obtain ⟨rfl, hpair⟩ := ends_done.1 hend
  obtain rfl := ends_request.1 hlog
  exact ⟨rfl, (Prod.mk.inj hpair).2⟩

/-- The exchange with the machine. -/
def Uinput.toHost? : Exchange Uinput.interface → Option (Exchange Host.interface)
  | ⟨.call c, reply⟩ => some ⟨.uinput c, reply⟩
  | ⟨.systemName, reply⟩ => some ⟨.systemName, reply⟩
  | ⟨.log _, _⟩ => none

theorem deeds_answerUinput {outer : History Uinput.interface} (hu : Program.Unfolds answerUinput outer h) :
    deeds h = outer.filterMap Uinput.toHost? := by
  induction hu with
  | nil => rfl
  | @cons x outer stretch inner answered _ ih =>
    rw [deeds_append, ih, List.filterMap_cons]
    obtain ⟨q, r⟩ := x
    cases q with
    | call | systemName | log =>
      obtain rfl := ends_request.1 answered
      rfl

/-- With nothing pending, what is written for a frame are its own events. -/
theorem deeds_forwarderSubmit {l : Latch} {sample : Sample} {reply : Except String Unit} (hw : w.pending = [])
    (he : ((place.answerForwarder (.submit (l.frame sample))).run w).Ends h (reply, w')) :
    Written (rawEvents (l.frame sample)) (deeds h) reply ∧ (reply = .ok () → w'.pending = []) := by
  obtain ⟨outer, hsubmit, hunfolds⟩ := ends_under he
  obtain ⟨outcome, hflushed, hpair⟩ := Uinput.Writer.flushed_of_submit (Uinput.closed_frame l sample) hsubmit
  rw [hw, List.nil_append] at hflushed
  rw [deeds_answerUinput hunfolds]
  cases hflushed with
  | unwritten reason =>
    obtain ⟨rfl, -⟩ := Prod.mk.inj hpair
    exact ⟨.unwritten reason, nofun⟩
  | unfinished reason =>
    obtain ⟨rfl, -⟩ := Prod.mk.inj hpair
    exact ⟨.unfinished reason, nofun⟩
  | @finished said hlogs =>
    obtain ⟨rfl, rfl⟩ := Prod.mk.inj hpair
    have hsaid : said.filterMap Uinput.toHost? = [] := by
      rw [List.filterMap_eq_nil_iff]
      rintro ⟨q, r⟩ hx
      obtain ⟨entry, rfl⟩ := hlogs _ hx
      rfl
    refine ⟨?_, fun _ => rfl⟩
    simp only [List.filterMap_cons, Uinput.toHost?, hsaid]
    exact .finished

/-! ## One round -/

/-- Between two rounds the digitizer delivers, and no event is pending. -/
structure Forwarder.Ready (s : DigitizerSettings) (f : Forwarder) : Prop where
  place : f.place = ⟨s.bus, s.address.toUInt8⟩
  delivering : f.digitizer.isDelivering = true
  settled : f.writer.pending = []

variable {s : DigitizerSettings} {f : Forwarder}

theorem fetched_of_ok {raw : Except Bus.Cause Bytes} {bytes : Bytes}
    (h : .ok bytes = (Bus.Transfer.read Pen.reportLength).received raw) : ∃ sent, raw = .ok sent ∧ bytes = Bus.fit 22 sent := by
  rcases raw with cause | sent
  · cases h
  · exact ⟨sent, rfl, Except.ok.inj h⟩

/-- A report that was fetched and its frame, below the digitizer. -/
theorem deeds_taken {d : Pen.Digitizer} {bytes : Bytes} {sample : Sample} {reply : Except String Unit}
    (hpending : w.pending = []) (hunfolds : Program.UnfoldsFrom (Place.answerForwarder ⟨s.bus, s.address.toUInt8⟩) w
      [Pen.asked (.ok bytes), Pen.handed (d.latch.frame sample) reply] h w') :
    ∃ raw batch, bytes = Bus.fit 22 raw ∧ deeds h = fetched s (.ok raw) :: batch ∧
      Written (rawEvents (d.latch.frame sample)) batch reply ∧ (reply = .ok () → w'.pending = []) := by
  obtain ⟨_, _, _, rfl, hread, hunfolds⟩ := unfoldsFrom_cons.1 hunfolds
  obtain ⟨_, _, _, rfl, hsubmit, hunfolds⟩ := unfoldsFrom_cons.1 hunfolds
  obtain ⟨rfl, rfl⟩ := unfoldsFrom_nil.1 hunfolds
  obtain ⟨raw, hdeeds, hreply, rfl⟩ := deeds_forwarderTransfer hread
  obtain ⟨raw, rfl, rfl⟩ := fetched_of_ok hreply
  obtain ⟨hwritten, hsettled⟩ := deeds_forwarderSubmit hpending hsubmit
  refine ⟨raw, _, rfl, ?_, hwritten, hsettled⟩
  simp [hdeeds, fetched, Pen.reportLength]

/-- The report cannot be fetched, and all is as before; or it is fetched, and its frame is written. -/
theorem Forwarder.ends_forward (hf : f.Ready s) {r : Except Failure Forwarder} (he : f.forward.run.Ends h r) :
    (∃ cause, deeds h = [fetched s (.error cause)] ∧ r = .ok f) ∨
      ∃ raw sample batch reply, Sample.decode (Bus.fit 22 raw) = .ok sample ∧ deeds h = fetched s (.ok raw) :: batch ∧
        Written (rawEvents (f.digitizer.latch.frame sample)) batch reply ∧
          match reply with
          | .error reason => r = .error (.pen (.refused reason))
          | .ok () => ∃ f', r = .ok f' ∧ f'.Ready s ∧ f'.digitizer.latch = f.digitizer.latch.next sample := by
  obtain ⟨place, digitizer, writer⟩ := f
  obtain ⟨rfl, hdelivering, hpending⟩ := hf
  obtain ⟨h₁, ⟨⟨result, after⟩, left⟩, h₂, rfl, hnotify, hrest⟩ := Task.ends_lift_bind he
  obtain ⟨outer, hends, hunfolds⟩ := ends_underState hnotify
  rw [deeds_append]
  cases Pen.ends_notify hends with
  | masked off => cases hdelivering.symm.trans off
  | dropped _ failure =>
    obtain ⟨rfl, rfl⟩ := Task.ends_pure hrest
    obtain ⟨_, _, _, rfl, hread, hunfolds⟩ := unfoldsFrom_cons.1 hunfolds
    obtain ⟨_, _, _, rfl, hlog, hunfolds⟩ := unfoldsFrom_cons.1 hunfolds
    obtain ⟨rfl, rfl⟩ := unfoldsFrom_nil.1 hunfolds
    obtain ⟨raw, hdeeds, hreply, rfl⟩ := deeds_forwarderTransfer hread
    obtain ⟨hsaid, rfl⟩ := deeds_forwarderLog hlog
    rcases raw with cause | raw
    · exact .inl ⟨cause, by simp [hdeeds, hsaid, fetched, Pen.reportLength], rfl⟩
    · cases hreply
  | @malformed _ bytes what hdecode =>
    obtain ⟨_, _, _, rfl, hread, hunfolds⟩ := unfoldsFrom_cons.1 hunfolds
    obtain ⟨raw, -, hreply, -⟩ := deeds_forwarderTransfer hread
    obtain ⟨raw, -, rfl⟩ := fetched_of_ok hreply
    obtain ⟨sample, hsample⟩ := Pen.decode_sample_of_length (Bus.fit_length 22 raw)
    cases hdecode.symm.trans hsample
  | @refused _ bytes sample hdecode reason =>
    obtain ⟨raw, batch, rfl, hdeeds, hwritten, -⟩ := deeds_taken hpending hunfolds
    obtain ⟨rfl, rfl⟩ := ends_done.1 hrest
    rw [hdeeds]
    exact .inr ⟨raw, sample, batch, _, hdecode, List.append_nil _, hwritten, rfl⟩
  | @delivered _ bytes sample hdecode =>
    obtain ⟨raw, batch, rfl, hdeeds, hwritten, hsettled⟩ := deeds_taken hpending hunfolds
    obtain ⟨rfl, rfl⟩ := Task.ends_pure hrest
    rw [hdeeds]
    exact .inr ⟨raw, sample, batch, _, hdecode, List.append_nil _, hwritten, _, rfl, ⟨rfl, hdelivering, hsettled rfl⟩, rfl⟩

/-- The line is high, or a report may be there, or the line cannot be read. -/
theorem DataReady.ends_look {r : Except Failure Bool} (he : (ofSettings s).look.run.Ends h r) :
    (∃ line, s.irqLine = some line ∧ r = .ok false ∧
        effects h = [⟨.readLine line, .ok true⟩, ⟨.sleep (s.pollInterval.toNat * Rail.millisecond), ()⟩]) ∨
      (r = .ok true ∧ effects h = [notice s]) ∨
        ∃ line reason, s.irqLine = some line ∧ r = .error (.dataReady reason) ∧ effects h = [⟨.readLine line, .error reason⟩] := by
  unfold look at he
  cases hline : s.irqLine with
  | none =>
    simp only [ofSettings, hline] at he
    obtain ⟨_, _, _, rfl, hpause, hrest⟩ := Task.ends_lift_bind he
    obtain rfl := ends_host.1 hpause
    obtain ⟨rfl, rfl⟩ := Task.ends_pure hrest
    refine .inr (.inl ⟨rfl, ?_⟩)
    simp only [notice, hline]
    rfl
  | some line =>
    simp only [ofSettings, hline] at he
    rcases Task.ends_attempt_bind he with ⟨reason, rfl, hread⟩ | ⟨_, level, _, rfl, hread, hrest⟩
    · obtain rfl := ends_host.1 hread
      exact .inr (.inr ⟨line, reason, rfl, rfl, rfl⟩)
    · obtain rfl := ends_host.1 hread
      cases level with
      | false =>
        obtain ⟨rfl, rfl⟩ := Task.ends_pure hrest
        refine .inr (.inl ⟨rfl, ?_⟩)
        simp only [notice, hline]
        rfl
      | true =>
        rw [if_pos rfl] at hrest
        obtain ⟨_, _, _, rfl, hpause, hend⟩ := Task.ends_lift_bind hrest
        obtain rfl := ends_host.1 hpause
        obtain ⟨rfl, rfl⟩ := Task.ends_pure hend
        exact .inl ⟨line, rfl, rfl, rfl⟩

theorem deeds_notice (s : DigitizerSettings) : Host.deeds [notice s] = [notice s] := by
  unfold notice
  cases s.irqLine <;> rfl

theorem relays_notice (s : DigitizerSettings) (l : Latch) : Relays l [notice s] l := by
  unfold notice
  cases s.irqLine <;> exact .nothing l rfl rfl

/-- A report that was fetched, and its frame. -/
theorem relays_taken {l : Latch} {raw : Bytes} {sample : Sample} {batch : History Host.interface} {reply : Except String Unit}
    (hdecode : Sample.decode (Bus.fit 22 raw) = .ok sample) (hwritten : Written (rawEvents (l.frame sample)) batch reply) :
    Relays l (fetched s (.ok raw) :: batch) (l.next sample) := by
  refine ⟨[sample], ?_, ?_, rfl⟩
  · cases hwritten <;> simpa [fetched, Host.report?] using hdecode
  · cases hwritten <;> rfl

/-- A round is one look, which fails exactly if the line or the device does. What it writes is the frame of what it fetches. -/
theorem Forwarder.ends_round (hf : f.Ready s) {r : Except Failure Forwarder} (he : (f.round s).run.Ends h r) :
    Looked s r.isOk (deeds h) ∧ ∃ after, Relays f.digitizer.latch (deeds h) after ∧
      ∀ f', r = .ok f' → f'.Ready s ∧ f'.digitizer.latch = after := by
  rcases Task.ends_bind he with ⟨failure, rfl, hlook⟩ | ⟨_, there, _, rfl, hlook, hrest⟩
  · obtain ⟨_, -, hno, -⟩ | ⟨hyes, -⟩ | ⟨line, reason, hline, -, heffects⟩ := DataReady.ends_look hlook
    · cases hno
    · cases hyes
    · rw [← deeds_effects, heffects]
      exact ⟨.lineLost hline reason, _, .nothing _ rfl rfl, nofun⟩
  · obtain ⟨line, hline, hno, heffects⟩ | ⟨hyes, heffects⟩ | ⟨_, _, -, herror, -⟩ := DataReady.ends_look hlook
    · obtain rfl := Except.ok.inj hno
      obtain ⟨rfl, rfl⟩ := Task.ends_pure hrest
      rw [List.append_nil, ← deeds_effects, heffects]
      exact ⟨.notYet hline, _, .nothing _ rfl rfl, by rintro _ ⟨⟩; exact ⟨hf, rfl⟩⟩
    · obtain rfl := Except.ok.inj hyes
      rw [deeds_append, ← deeds_effects, heffects, deeds_notice]
      rcases Forwarder.ends_forward hf hrest with
        ⟨cause, hforward, rfl⟩ | ⟨raw, sample, batch, reply, hdecode, hforward, hwritten, hreply⟩
      · rw [hforward]
        refine ⟨.dropped cause, _, (relays_notice s _).append (.nothing _ rfl rfl), ?_⟩
        rintro _ ⟨⟩
        exact ⟨hf, rfl⟩
      · rw [hforward]
        have hrelays := (relays_notice s _).append (@relays_taken s _ _ _ _ _ hdecode hwritten)
        rcases reply with reason | u
        · obtain rfl := hreply
          exact ⟨.taken raw hwritten, _, hrelays, nofun⟩
        · obtain ⟨f', rfl, hready, hlatch⟩ := hreply
          exact ⟨.taken raw hwritten, _, hrelays, by rintro _ ⟨⟩; exact ⟨hready, hlatch⟩⟩
    · cases herror

/-! ## Round after round -/

theorem ends_ofTask {σ : Type} {t : Task σ} {turn : Turn σ (Except Failure Unit)} (he : (Turn.ofTask t).Ends h turn) :
    ∃ r, t.run.Ends h r ∧ turn = match r with | .ok a => .again a | .error failure => .over (.error failure) := by
  obtain ⟨_, r, _, rfl, ht, hend⟩ := ends_bind.1 he
  refine ⟨r, ?_⟩
  rcases r with failure | a
  all_goals
    obtain ⟨rfl, rfl⟩ := ends_done.1 hend
    rw [List.append_nil]
    exact ⟨ht, rfl⟩

/-- Looks after which there is another, or a last one after looks of that kind. -/
inductive LookedOn (s : DigitizerSettings) : Bool → List (History Host.interface) → Prop
  | on {looks : List (History Host.interface)} (all : ∀ look ∈ looks, Looked s true look) : LookedOn s true looks
  | last {earlier : List (History Host.interface)} {look : History Host.interface}
      (all : ∀ look ∈ earlier, Looked s true look) (final : Looked s false look) : LookedOn s false (earlier ++ [look])

/-- So many rounds are so many looks, or end with a look that failed. -/
theorem ends_rounds (hf : f.Ready s) {n : Nat} {turn : Turn Forwarder (Except Failure Unit)}
    (he : ((forward s).rounds n (.again f)).Ends h turn) :
    ∃ looks after, deeds h = looks.flatten ∧ Relays f.digitizer.latch looks.flatten after ∧
      ((turn.result? = none ∧ looks.length = n ∧ LookedOn s true looks) ∨
        ((∃ failure, turn.result? = some (.error failure)) ∧ LookedOn s false looks)) := by
  induction n generalizing f h with
  | zero =>
    obtain ⟨rfl, rfl⟩ := ends_done.1 he
    exact ⟨[], f.digitizer.latch, rfl, .nothing _ rfl rfl, .inl ⟨rfl, rfl, .on nofun⟩⟩
  | succ n ih =>
    obtain ⟨h₁, t, h₂, rfl, hround, hrest⟩ := ends_bind.1 he
    obtain ⟨r, hr, rfl⟩ := ends_ofTask hround
    obtain ⟨hlooked, after, hrelays, hready⟩ := Forwarder.ends_round hf hr
    rw [deeds_append]
    rcases r with failure | f'
    · -- A round that failed is the last one.
      obtain ⟨rfl, rfl⟩ := Process.ends_rounds_over hrest
      refine ⟨[deeds h₁], after, by simp, by simpa using hrelays, .inr ⟨⟨failure, rfl⟩, ?_⟩⟩
      exact @LookedOn.last s [] _ nofun hlooked
    · obtain ⟨hf', rfl⟩ := hready f' rfl
      obtain ⟨looks, last, hdeeds, hlater, hcases⟩ := ih hf' hrest
      refine ⟨deeds h₁ :: looks, last, by rw [hdeeds]; rfl, hrelays.append hlater, ?_⟩
      rcases hcases with ⟨hon, hlength, hlooks⟩ | ⟨hover, hlooks⟩
      · obtain ⟨hall⟩ := hlooks
        exact .inl ⟨hon, by rw [List.length_cons, hlength], .on (List.forall_mem_cons.2 ⟨hlooked, hall⟩)⟩
      · obtain _ | ⟨hall, hfinal⟩ := hlooks
        exact .inr ⟨hover, @LookedOn.last s (deeds h₁ :: _) _ (List.forall_mem_cons.2 ⟨hlooked, hall⟩) hfinal⟩

end Command

end PenRail
