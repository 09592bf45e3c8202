import PenRail.Bench.Desk
import PenRail.Proofs.Pen.Notified
import PenRail.Proofs.Pen.ReportLayout
import PenRail.Proofs.Pen.ToolLatch

/-!
# From reports to frames

A digitizer that is operated in any order hands over the frames of one latch over the reports it took while it delivered:
none lost, none repeated, none out of order. What is masked, dropped, malformed or only looked at leaves no mark on the
latch. `frames_of_reports` says so for every session of a digitizer that was probed.
-/

namespace PenRail.Pen

/-- Operations carried out on a digitizer, each kept as it went. -/
abbrev Session (σ : Type) := Course interface Digitizer Method (Result Answer) σ

abbrev Call := Called interface Digitizer Method (Result Answer)

/-! ## Reports -/

/-- Long enough to be a report: its data are 15 bytes. -/
def isWhole (bytes : Bytes) : Bool :=
  decide (15 ≤ bytes.length)

/-- What can be decoded is a whole report, and nothing else. -/
theorem isWhole_eq_isOk_decode (bytes : Bytes) : isWhole bytes = (Sample.decode bytes).isOk := by
  unfold isWhole
  by_cases h : 15 ≤ bytes.length
  · rw [decode_sample_of_le h]
    exact decide_eq_true h
  · rw [decode_sample_eq_error_iff.2 ⟨Nat.lt_of_not_le h, rfl⟩]
    exact decide_eq_false h

/-- The whole reports in a history give samples, one each, whose frames are what was handed over. -/
def Forwards (before : Latch) (reports : List Bytes) (frames : List Frame) (after : Latch) : Prop :=
  ∃ samples, (reports.filter isWhole).map Sample.decode = samples.map .ok ∧
    frames = (before.frames samples).map Prod.fst ∧ after = before.after samples

theorem Forwards.nothing (l : Latch) : Forwards l [] [] l :=
  ⟨[], rfl, rfl, rfl⟩

theorem Forwards.append {l l' l'' : Latch} {reports later : List Bytes} {frames framesLater : List Frame}
    (h : Forwards l reports frames l') (hlater : Forwards l' later framesLater l'') :
    Forwards l (reports ++ later) (frames ++ framesLater) l'' := by
  obtain ⟨samples, hdecode, rfl, rfl⟩ := h
  obtain ⟨samplesLater, hdecodeLater, rfl, rfl⟩ := hlater
  refine ⟨samples ++ samplesLater, ?_, ?_, ?_⟩
  · rw [List.filter_append, List.map_append, hdecode, hdecodeLater, List.map_append]
  · rw [Latch.frames_append, List.map_append]
  · rw [Latch.after_append]

variable {d d' : Digitizer} {h : History interface} {r : Result Notification}

/-- A notification forwards what it reads, whichever way it goes. -/
theorem Notified.forwards (hn : Notified d h r d') :
    Forwards d.latch (h.filterMap report?) (h.filterMap submitted?) d'.latch := by
  cases hn with
  | masked => exact .nothing _
  | dropped => exact .nothing _
  | @malformed _ bytes what hdecode =>
    have hshort : isWhole bytes = false := by rw [isWhole_eq_isOk_decode, hdecode]; rfl
    exact ⟨[], by simp [asked, report?, hshort], rfl, rfl⟩
  | @refused _ bytes s hdecode reason =>
    have hwhole : isWhole bytes = true := by rw [isWhole_eq_isOk_decode, hdecode]; rfl
    exact ⟨[s], by simp [asked, handed, report?, hwhole, hdecode], rfl, rfl⟩
  | @delivered _ bytes s hdecode =>
    have hwhole : isWhole bytes = true := by rw [isWhole_eq_isOk_decode, hdecode]; rfl
    exact ⟨[s], by simp [asked, handed, report?, hwhole, hdecode], rfl, rfl⟩

theorem Notified.gates (hn : Notified d h r d') : d'.opened = d.opened ∧ d'.suspended = d.suspended := by
  cases hn <;> exact ⟨rfl, rfl⟩

/-- A digitizer that delivers reads once, and hands over one frame at most. -/
theorem Notified.traffic (hn : Notified d h r d') (hd : d.isDelivering = true) :
    h.filterMap transfer? = [.read 22] ∧ (h.filterMap submitted?).length ≤ 1 := by
  cases hn with
  | masked off => cases hd.symm.trans off
  | dropped | malformed => exact ⟨rfl, Nat.zero_le 1⟩
  | refused | delivered => exact ⟨rfl, Nat.le_refl 1⟩

/-- Only a sample moves the latch. -/
theorem Notified.latch_eq (hn : Notified d h r d')
    (hr : r = .ok .masked ∨ r = .ok .dropped ∨ ∃ what, r = .error (.malformed what)) : d'.latch = d.latch := by
  cases hn with
  | masked | dropped | malformed => rfl
  | refused | delivered =>
    rcases hr with hr | hr | ⟨what, hr⟩
    all_goals cases hr

/-- One that does not deliver asks for nothing. -/
theorem Notified.of_off (hn : Notified d h r d') (hd : d.isDelivering = false) : h = [] ∧ r = .ok .masked ∧ d' = d := by
  cases hn with
  | masked => exact ⟨rfl, rfl, rfl⟩
  | dropped on | malformed on | refused on | delivered on => cases hd.symm.trans on

/-! ## When notifications are answered -/

def Method.opensOrCloses : Method → Bool
  | .openDevice | .closeDevice => true
  | _ => false

def Method.suspendsOrResumes : Method → Bool
  | .suspend | .resume => true
  | _ => false

/-- The last to open or close has opened, and the last to suspend or resume, if any, has not suspended. -/
def Delivering (operations : List Method) : Prop :=
  (operations.filter Method.opensOrCloses).getLast? = some .openDevice ∧
    (operations.filter Method.suspendsOrResumes).getLast? ≠ some .suspend

instance (operations : List Method) : Decidable (Delivering operations) :=
  inferInstanceAs (Decidable (_ ∧ _))

/-- The reports that notifications took while the digitizer delivered, `earlier` being what was done before. -/
def reportsAfter (earlier : List Method) : List Call → List Bytes
  | [] => []
  | k :: later =>
    (if k.operation = .notify ∧ Delivering earlier then k.history.filterMap report? else []) ++
      reportsAfter (earlier ++ [k.operation]) later

theorem reportsAfter_append (earlier : List Method) (calls later : List Call) :
    reportsAfter earlier (calls ++ later) =
      reportsAfter earlier calls ++ reportsAfter (earlier ++ calls.map Called.operation) later := by
  induction calls generalizing earlier with
  | nil => simp [reportsAfter]
  | cons k rest ih => simp [reportsAfter, ih]

/-- The two gates are as they were last set. -/
structure Gated (d : Digitizer) (operations : List Method) : Prop where
  opened : d.opened = true ↔ (operations.filter Method.opensOrCloses).getLast? = some .openDevice
  suspended : d.suspended = true ↔ (operations.filter Method.suspendsOrResumes).getLast? = some .suspend

theorem Gated.isDelivering_iff {operations : List Method} (hd : Gated d operations) :
    d.isDelivering = true ↔ Delivering operations := by
  rw [Digitizer.isDelivering, Bool.and_eq_true, hd.opened, Bool.not_eq_true', ← Bool.not_eq_true, hd.suspended]
  rfl

theorem Gated.of_notified {operations : List Method} (hd : Gated d operations) (hn : Notified d h r d') :
    Gated d' operations := by
  obtain ⟨hopened, hsuspended⟩ := hn.gates
  exact ⟨by rw [hopened, hd.opened], by rw [hsuspended, hd.suspended]⟩

theorem Gated.next {operations : List Method} (hd : Gated d operations) (m : Method) :
    Gated (d.gated m) (operations ++ [m]) := by
  obtain ⟨hopened, hsuspended⟩ := hd
  cases m <;>
    constructor <;>
      simp [Digitizer.gated, List.filter_append, Method.opensOrCloses, Method.suspendsOrResumes, hopened, hsuspended]

/-! ## Sessions -/

/-- What a session keeps: the gates are as they were set, and all whole reports that notifications took while they were
open have been forwarded. -/
structure InOrder {σ : Type} (before : Latch) (s : Session σ) : Prop where
  gated : Gated s.view (s.calls.map Called.operation)
  forwards : Forwards before (reportsAfter [] s.calls) (s.exchanged.filterMap submitted?) s.view.latch

namespace InOrder

variable {σ : Type} {before : Latch} {s s' : Session σ}

theorem fresh (capabilities : Capabilities) (state : σ) : InOrder {} ⟨[], { capabilities }, state⟩ :=
  ⟨⟨by simp, by simp⟩, .nothing _⟩

/-- One more call, which forwards what it adds to the reports. -/
theorem of_forwards {k : Call} (hs : InOrder before s) (hcalls : s'.calls = s.calls ++ [k])
    (hgated : Gated s'.view (s.calls.map Called.operation ++ [k.operation]))
    (hk : Forwards s.view.latch
      (if k.operation = .notify ∧ Delivering (s.calls.map Called.operation) then k.history.filterMap report? else [])
      (k.history.filterMap submitted?) s'.view.latch) : InOrder before s' := by
  refine ⟨?_, ?_⟩
  · rw [hcalls, List.map_append]
    exact hgated
  · have hall := hs.forwards.append hk
    have hexchanged : s'.exchanged = s.exchanged ++ k.history := by
      simp [Course.exchanged, hcalls]
    rw [hexchanged, hcalls, reportsAfter_append, List.filterMap_append]
    simpa [reportsAfter] using hall

theorem next (answer : Answerer interface σ) (hs : InOrder before s) (m : Method) :
    InOrder before (s.next Digitizer.call answer m) := by
  have hgated := hs.gated.next m
  rcases ends_call (s.ends_made Digitizer.call answer m) with ⟨rfl, what, -, hn⟩ | ⟨hm, -, hview, hasked⟩
  · have hforwards := hn.forwards
    have hreports : (if Delivering (s.calls.map Called.operation) then
        (s.made Digitizer.call answer .notify).history.filterMap report? else []) =
          (s.made Digitizer.call answer .notify).history.filterMap report? := by
      refine ite_eq_left_iff.2 fun hnot => ?_
      rw [← hs.gated.isDelivering_iff, Bool.not_eq_true] at hnot
      rw [(hn.of_off hnot).1]
      rfl
    refine hs.of_forwards (s.next_calls Digitizer.call answer .notify) (hgated.of_notified hn) ?_
    simp only [Course.made_operation, true_and, hreports]
    exact hforwards
  · have hnone : (s.made Digitizer.call answer m).history.filterMap submitted? = [] := by
      rw [List.filterMap_eq_nil_iff]
      intro x hx
      obtain ⟨reply, rfl⟩ := hasked x hx
      rfl
    refine hs.of_forwards (s.next_calls Digitizer.call answer m) ?_ ?_
    · rw [Course.next_view, hview]
      exact hgated
    · simp only [Course.made_operation, hm, false_and, if_false, hnone, Course.next_view, hview, Digitizer.gated_latch]
      exact .nothing _

theorem run (answer : Answerer interface σ) (capabilities : Capabilities) (operations : List Method) (state : σ) :
    InOrder {} (Course.run Digitizer.call answer operations { capabilities } state) :=
  Course.always Digitizer.call answer (InOrder {}) (fresh capabilities state) fun _ m _ hs => hs.next answer m

end InOrder

/-- A session of a digitizer that was probed, whatever its reads bring and whatever the consumer refuses. The frames handed
over are those of one fresh latch over the samples of the whole reports that notifications took while the digitizer
delivered, in order. A notification reads 22 bytes, once, and hands over one frame at most; when it is masked nothing is
asked for at all. Looking at a report, and a notification that is masked, dropped or malformed, leave the latch alone. -/
theorem frames_of_reports {σ : Type} (answer : Answerer interface σ) (start : σ) {d : Digitizer}
    (hd : (Digitizer.probe.play answer start).result = .ok d) (operations : List Method) :
    let s : Session σ := Course.run Digitizer.call answer operations d (Digitizer.probe.play answer start).state
    let notified : Call := s.made Digitizer.call answer .notify
    (∃ samples, ((reportsAfter [] s.calls).filter isWhole).map Sample.decode = samples.map .ok ∧
        s.exchanged.filterMap submitted? = (({} : Latch).frames samples).map Prod.fst ∧
        s.view.latch = ({} : Latch).after samples) ∧
      (Delivering operations → notified.history.filterMap transfer? = [.read 22] ∧
        (notified.history.filterMap submitted?).length ≤ 1) ∧
      (¬Delivering operations → notified.result = .ok (.notification .masked) ∧ notified.history = [] ∧
        (s.next Digitizer.call answer .notify).state = s.state) ∧
      (notified.result = .ok (.notification .masked) ∨ notified.result = .ok (.notification .dropped) ∨
          (∃ what, notified.result = .error (.malformed what)) → notified.after.latch = s.view.latch) ∧
      (s.made Digitizer.call answer .readSample).after.latch = s.view.latch := by
  intro s notified
  have hprobe := Program.ends_play answer Digitizer.probe start
  rw [hd] at hprobe
  obtain ⟨capabilities, rfl⟩ := ends_probe hprobe
  have hs : InOrder {} s := .run answer capabilities operations _
  have hdone : s.calls.map Called.operation = operations := Course.operations_run Digitizer.call answer operations _ _
  have hdelivering : s.view.isDelivering = true ↔ Delivering operations := hdone ▸ hs.gated.isDelivering_iff
  obtain ⟨what, hresult, hn⟩ : ∃ what, notified.result = what.map .notification ∧
      Notified s.view notified.history what notified.after := by
    rcases ends_call (s.ends_made Digitizer.call answer .notify) with ⟨-, hn⟩ | ⟨hne, -⟩
    · exact hn
    · exact absurd rfl hne
  refine ⟨hs.forwards, fun hon => hn.traffic (hdelivering.2 hon), fun hoff => ?_, fun hleft => ?_, ?_⟩
  · rw [← hdelivering, Bool.not_eq_true] at hoff
    obtain ⟨hnothing, hmasked, -⟩ := hn.of_off hoff
    refine ⟨?_, hnothing, s.next_state_of_history_nil Digitizer.call answer .notify hnothing⟩
    rw [hresult, hmasked]
    rfl
  · refine hn.latch_eq ?_
    rw [hresult] at hleft
    cases what <;> simpa [Except.map] using hleft
  · rcases ends_call (s.ends_made Digitizer.call answer .readSample) with ⟨hne, -⟩ | ⟨-, -, hview, -⟩
    · cases hne
    · rw [hview, Digitizer.gated_latch]

/-- A report with nothing but a status. -/
def bareReport (status : UInt8) : Bytes :=
  [0, 0, 0, status] ++ List.replicate 11 0

/-- After its limits, the chip reports an eraser, fails, sends too few bytes, reports nothing near, and reports a pen. The
consumer refuses the second frame. -/
def roughDesk : Bench.Desk where
  chip := { replies := [.bytes (List.replicate 21 0), .bytes (bareReport 0x24), .fails (.adapter .bus), .bytes [0x24],
    .bytes (bareReport 0x00), .bytes (bareReport 0x20)] }
  consumer := .recorder [none, some "full"] []

/-- There two of six notifications hand a frame over: the others are masked, dropped or malformed, and the report of nothing
near is only looked at. -/
theorem frames_of_reports_roughDesk :
    let probed := Digitizer.probe.play Bench.Desk.answerPen roughDesk
    let operations : List Method :=
      [.notify, .openDevice, .notify, .notify, .suspend, .notify, .resume, .notify, .readSample, .notify]
    ∃ d, probed.result = .ok d ∧
      let s : Session Bench.Desk := Course.run Digitizer.call Bench.Desk.answerPen operations d probed.state
      ∃ eraser pen : Sample,
        s.exchanged.filterMap submitted? = (({} : Latch).frames [eraser, pen]).map Prod.fst ∧
          eraser.tool = .eraser ∧ pen.tool = .pen ∧ s.view.latch.tool = .eraser := by
  intro probed operations
  refine ⟨{ capabilities := ⟨0, 0, 0, 0, 0, 0, 0, 0⟩ }, by rfl, ?_⟩
  intro s
  obtain ⟨⟨samples, hdecode, hframes, hlatch⟩, -⟩ :=
    frames_of_reports Bench.Desk.answerPen roughDesk (d := { capabilities := ⟨0, 0, 0, 0, 0, 0, 0, 0⟩ }) (by rfl) operations
  have hreports : (reportsAfter [] s.calls).filter isWhole = [bareReport 0x24, bareReport 0x20] := by decide
  rw [hreports] at hdecode
  obtain ⟨eraser, rest, rfl, heraser, hrest⟩ := List.map_eq_cons_iff.1 hdecode.symm
  obtain ⟨pen, _, rfl, hpen, hnone⟩ := List.map_eq_cons_iff.1 hrest
  obtain rfl := List.map_eq_nil_iff.1 hnone
  obtain rfl := Except.ok.inj heraser
  obtain rfl := Except.ok.inj hpen
  refine ⟨_, _, hframes, rfl, rfl, ?_⟩
  rw [hlatch]
  rfl

end PenRail.Pen
