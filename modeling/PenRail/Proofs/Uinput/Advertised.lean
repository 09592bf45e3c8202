import PenRail.Proofs.Pen.CapabilityLayout
import PenRail.Proofs.Pen.ReportLayout
import PenRail.Proofs.Uinput.Batches

/-!
# What is written was advertised

The keys and axes that a device is declared with, the events that the latch makes of a sample, and the numbers that stand for
keys and axes are three lists, kept apart. They fit: what is written for a report is ten events, each of a key or an axis that
was advertised, with the report's own numbers. Nothing is clamped, so a number is within its advertised range exactly if it
is within the digitizer's limit.
-/

namespace PenRail.Pen

/-! ## The numbers of a report -/

/-- The number that a report has for an axis. -/
def reported (report : Bytes) : Axis → Int
  | .x => unsigned (byteAt report 4) (byteAt report 5)
  | .y => unsigned (byteAt report 6) (byteAt report 7)
  | .pressure => unsigned (byteAt report 8) (byteAt report 9)
  | .distance => (byteAt report 10).toNat
  | .tiltX => signed (byteAt report 11) (byteAt report 12)
  | .tiltY => signed (byteAt report 13) (byteAt report 14)

/-- Only tilt goes below zero. -/
theorem reported_nonneg (report : Bytes) {a : Axis} (ha : a.isTilt = false) : 0 ≤ reported report a := by
  cases a with
  | x | y | pressure => exact unsigned_nonneg _ _
  | distance => exact Int.natCast_nonneg _
  | tiltX | tiltY => cases ha

/-- A number is between the bounds of an axis if it is no further from zero than the axis goes. -/
theorem within_bounds_iff (caps : Capabilities) {a : Axis} {n : Int} (hn : a.isTilt = false → 0 ≤ n) :
    (caps.bounds a).1 ≤ n ∧ n ≤ (caps.bounds a).2 ↔ n.natAbs ≤ caps.limit a := by
  unfold Capabilities.bounds
  cases htilt : a.isTilt with
  | true =>
    rw [if_pos rfl]
    omega
  | false =>
    have hn := hn htilt
    rw [if_neg Bool.false_ne_true]
    omega

theorem Axis.code_inj {a b : Axis} (h : a.code = b.code) : a = b := by
  cases a <;> cases b <;> first | rfl | exact absurd h (by decide)

/-- An event by type and code, its value as an exact number. -/
def RawEvent.numbers (e : RawEvent) : UInt16 × UInt16 × Int :=
  (e.type, e.code, e.value.toInt)

/-- A key that is pressed or not, in numbers. -/
def keyNumbers (k : Key) (pressed : Bool) : UInt16 × UInt16 × Int :=
  (1, k.code, if pressed then 1 else 0)

/-- What a report says while a tool is held, in numbers: four keys, of which the second is that of the tool, and six axes. -/
def frameNumbers (tool : Tool) (report : Bytes) : List (UInt16 × UInt16 × Int) :=
  [keyNumbers .touch (statusBit report 0 || statusBit report 2),
    keyNumbers tool.key (statusBit report 5),
    keyNumbers .stylus (statusBit report 1),
    keyNumbers .stylus2 (statusBit report 4)] ++ Axis.all.map fun a => (3, a.code, reported report a)

theorem numbers_key (k : Key) (pressed : Bool) :
    RawEvent.numbers ⟨1, k.code, if pressed then 1 else 0⟩ = keyNumbers k pressed := by
  cases pressed <;> rfl

/-- Each axis carries the number that its two bytes, or its one byte, stand for. -/
theorem numbers_frameOf (tool : Tool) {report : Bytes} (h : 15 ≤ report.length) {sample : Sample}
    (hsample : Sample.decode report = .ok sample) :
    (Uinput.rawEvents (Latch.frameOf tool sample)).map RawEvent.numbers = frameNumbers tool report := by
  rw [decode_sample_of_le h] at hsample
  obtain rfl := Except.ok.inj hsample
  -- First the events that are written, then the numbers that their words and bytes stand for.
  simp only [Latch.frameOf, Uinput.rawEvents, List.filterMap_cons, List.filterMap_nil, Event.raw?, List.map_cons, List.map_nil,
    numbers_key]
  simp only [RawEvent.numbers, toInt_ofNat_word, toInt_ofNat_byte, Int16.toInt_toInt32, wordAt, toInt_word, cast_word_toNat]
  rfl

/-- Every axis event among the numbers has the number that the report has for its axis. -/
theorem reported_of_mem_frameNumbers {tool : Tool} {report : Bytes} {a : Axis} {n : Int}
    (h : (3, a.code, n) ∈ frameNumbers tool report) : n = reported report a := by
  rcases List.mem_append.1 h with hkey | haxis
  · simp [keyNumbers] at hkey
  · obtain ⟨b, -, hb⟩ := List.mem_map.1 haxis
    obtain ⟨-, hrest⟩ := Prod.mk.inj hb
    obtain ⟨hcode, hvalue⟩ := Prod.mk.inj hrest
    rw [← Axis.code_inj hcode, hvalue]

end PenRail.Pen

namespace PenRail.Uinput

open Pen (Axis AxisRange Capabilities Event Frame Key Latch RawEvent Sample frameNumbers reported)
open Program (ends_bind ends_done ends_request)

variable {h : History interface}

/-! ## What was advertised -/

/-- The call, if the input layer took it. -/
def taken? : Exchange interface → Option Call
  | ⟨.call c, .ok _⟩ => some c
  | _ => none

/-- The keys that a device was declared with, in calls that the input layer took. -/
def advertisedKeys (h : History interface) : List Key :=
  (h.filterMap taken?).flatMap fun
    | .keys keys => keys
    | _ => []

/-- The axes that a device was declared with, each with its range, in calls that the input layer took. -/
def advertisedRanges (h : History interface) : List AxisRange :=
  (h.filterMap taken?).flatMap fun
    | .axes ranges => ranges
    | _ => []

/-- The event is of a key or an axis that was advertised. -/
def Advertised (h : History interface) (e : RawEvent) : Prop :=
  (e.type = 1 ∧ e.code ∈ (advertisedKeys h).map Key.code) ∨
    (e.type = 3 ∧ e.code ∈ (advertisedRanges h).map fun r => r.axis.code)

theorem taken_callAll {calls : List Call} (he : (callAll calls).Ends h (.ok ())) : h.filterMap taken? = calls := by
  induction calls generalizing h with
  | nil =>
    obtain ⟨rfl, -⟩ := ends_done.1 he
    rfl
  | cons c rest ih =>
    obtain ⟨_, outcome, _, rfl, hcall, hrest⟩ := ends_bind.1 he
    obtain rfl := Writer.ends_call.1 hcall
    rcases outcome with reason | u
    · cases (ends_done.1 hrest).2
    · rw [List.filterMap_append, ih hrest]
      rfl

/-- A device that was declared was declared with all of its declaration. -/
theorem taken_create {caps : Capabilities} {w : Writer} (he : (Writer.create caps).Ends h (.ok w)) :
    h.filterMap taken? = declaration caps := by
  obtain ⟨_, declared, rest, rfl, hcalls, hrest⟩ := ends_bind.1 he
  rcases declared with reason | u
  · cases (ends_done.1 hrest).2
  · have hquiet : rest.filterMap taken? = [] := by
      obtain ⟨_, name, _, rfl, hname, hend⟩ := ends_bind.1 hrest
      obtain rfl := ends_request.1 hname
      cases name with
      | none =>
        obtain ⟨rfl, -⟩ := ends_done.1 hend
        rfl
      | some name =>
        obtain ⟨_, _, _, rfl, hsaid, hlast⟩ := ends_bind.1 hend
        obtain ⟨rfl, -⟩ := ends_done.1 hlast
        rw [ends_say hsaid]
        rfl
    rw [List.filterMap_append, taken_callAll hcalls, hquiet, List.append_nil]

section
variable {caps : Capabilities} (htaken : h.filterMap taken? = declaration caps)

include htaken

theorem advertisedKeys_eq : advertisedKeys h = declaredKeys := by
  rw [advertisedKeys, htaken]
  rfl

theorem advertisedRanges_eq : advertisedRanges h = caps.axisRanges := by
  rw [advertisedRanges, htaken]
  rfl

/-- Every key and every axis there is was advertised. -/
theorem advertised_of_raw? {e : Event} {raw : RawEvent} (hraw : e.raw? = some raw) : Advertised h raw := by
  unfold Advertised
  rw [advertisedKeys_eq htaken, advertisedRanges_eq htaken]
  cases e with
  | key k pressed =>
    obtain rfl := Option.some.inj hraw
    refine .inl ⟨rfl, List.mem_map_of_mem ?_⟩
    cases k <;> decide
  | axis a value =>
    obtain rfl := Option.some.inj hraw
    refine .inr ⟨rfl, ?_⟩
    cases a <;> simp [Capabilities.axisRanges]
  | sync => cases hraw

/-- A value is in the range that was advertised for its axis exactly if it is no further from zero than the axis goes. -/
theorem in_range_iff {a : Axis} {r : AxisRange} (hr : r ∈ advertisedRanges h) (hcode : r.axis.code = a.code) {value : Int32}
    (hvalue : a.isTilt = false → 0 ≤ value.toInt) :
    r.min ≤ value ∧ value ≤ r.max ↔ value.toInt.natAbs ≤ caps.limit a := by
  rw [advertisedRanges_eq htaken] at hr
  obtain rfl := Pen.Axis.code_inj hcode
  obtain ⟨hmin, hmax⟩ := Prod.mk.inj (Pen.bounds_of_mem_axisRanges hr)
  rw [Int32.le_iff_toInt_le, Int32.le_iff_toInt_le, hmin, hmax]
  exact Pen.within_bounds_iff caps hvalue

end

/-! ## What is written -/

/-- After frames that all went through nothing is pending. -/
theorem pending_run {σ : Type} (answer : Answerer interface σ) (state : σ) {frames : List Frame}
    (hframes : ∀ f ∈ frames, f.getLast? = some .sync)
    (hok : ∀ k ∈ (Course.run Writer.submit answer frames {} state).calls, k.result = .ok ()) :
    (Course.run Writer.submit answer frames {} state).view.pending = [] := by
  have hlast : frames.flatten = [] ∨ frames.flatten.getLast? = some .sync := by
    rcases frames.eq_nil_or_concat with rfl | ⟨front, f, rfl⟩
    · exact .inl rfl
    · have hf := hframes f (by simp)
      exact .inr (by simp [hf])
  obtain ⟨batches, rest, hcut, -, hpending⟩ := Delivered.run answer frames state hok
  rw [streamed_run] at hcut
  obtain rfl := hcut.rest_eq_nil hlast
  exact hpending

/-- A report for a device that was declared, after frames that all went through, whatever the latch is. What is written for it
is one batch: touch, the key of the tool, the two buttons and the six axes, in that order and in the report's own numbers, and
touch is pressed if one of the status bits 0 and 2 is set. Each of these events is of a key or an axis that the device was
declared with. And a value is within the range that was declared for its axis exactly if the report's number is at most the
limit for that axis, or for tilt at most as far to either side. -/
theorem writes_were_advertised {σ : Type} (answer : Answerer interface σ) (start : σ) {caps : Capabilities} {w : Writer}
    (hw : ((Writer.create caps).play answer start).result = .ok w) {frames : List Frame}
    (hframes : ∀ f ∈ frames, f.getLast? = some .sync) (l : Latch) {report : Bytes} (hreport : 15 ≤ report.length) :
    let created := (Writer.create caps).play answer start
    let s : Session σ := Course.run Writer.submit answer frames w created.state
    (∀ k ∈ s.calls, k.result = .ok ()) →
      ∃ sample events, Sample.decode report = .ok sample ∧
        (s.made Writer.submit answer (l.frame sample)).history.filterMap written? = [events] ∧
        events.map RawEvent.numbers = frameNumbers (l.next sample).tool report ∧
        (∀ e ∈ events, Advertised created.history e) ∧
        ∀ e ∈ events, ∀ a : Axis, e.type = 3 → e.code = a.code →
          ∀ r ∈ advertisedRanges created.history, r.axis.code = e.code →
            (r.min ≤ e.value ∧ e.value ≤ r.max ↔ (reported report a).natAbs ≤ caps.limit a) := by
  intro created s hok
  have hcreate := Program.ends_play answer (Writer.create caps) start
  rw [hw] at hcreate
  have htaken := taken_create hcreate
  obtain rfl := Writer.ends_create hcreate
  obtain ⟨sample, hsample⟩ : ∃ sample, Sample.decode report = .ok sample := ⟨_, Pen.decode_sample_of_le hreport⟩
  have hnumbers : (rawEvents (l.frame sample)).map RawEvent.numbers = frameNumbers (l.next sample).tool report :=
    Pen.numbers_frameOf _ hreport hsample
  have hpending : s.view.pending = [] := pending_run answer _ hframes hok
  have hwritten := (Writer.ends_submit (closed_frame l sample) (s.ends_made Writer.submit answer (l.frame sample))).1
  rw [hpending, List.nil_append] at hwritten
  refine ⟨sample, _, hsample, hwritten, hnumbers, ?_, ?_⟩
  · intro e he
    obtain ⟨event, -, hraw⟩ := List.mem_filterMap.1 he
    exact advertised_of_raw? htaken hraw
  · intro e he a htype hcode r hr hrange
    -- Axis codes differ, so the code alone says which number of the report the value is.
    have hmem := List.mem_map_of_mem (f := RawEvent.numbers) he
    rw [hnumbers, RawEvent.numbers, htype, hcode] at hmem
    have hvalue := Pen.reported_of_mem_frameNumbers hmem
    rw [← hvalue]
    refine in_range_iff htaken hr (hrange.trans hcode) fun htilt => ?_
    rw [hvalue]
    exact Pen.reported_nonneg report htilt

/-- A report of a pen that leans over, of 17 bytes. The tip touches, the eraser switch is not set. -/
def leaningReport : Bytes :=
  [0x16, 0x00, 0x02, 0x31, 0xe7, 0x51, 0x0c, 0x00, 0xff, 0x0f, 0x05, 0x50, 0xfb, 0x84, 0x03, 0xff, 0xff]

/-- The report comes after one of the eraser end, and the latch holds that tool. What is written has it, and the numbers of the
report; all of it was advertised, and tilt to the left lies in its range. -/
theorem writes_were_advertised_leaningReport :
    let created := (Writer.create Pen.capturedLimits).play Bench.Desk.answerUinput {}
    let before : Frame := ({} : Latch).frame Pen.leaning
    let l : Latch := ({} : Latch).next Pen.leaning
    created.result = .ok {} ∧ before.getLast? = some .sync ∧ 15 ≤ leaningReport.length ∧
      let s : Session Bench.Desk := Course.run Writer.submit Bench.Desk.answerUinput [before] {} created.state
      (∀ k ∈ s.calls, k.result = .ok ()) ∧
        ∃ sample events, Sample.decode leaningReport = .ok sample ∧
          (s.made Writer.submit Bench.Desk.answerUinput (l.frame sample)).history.filterMap written? = [events] ∧
          events.map RawEvent.numbers =
            [(1, 330, 1), (1, 321, 1), (1, 331, 0), (1, 332, 1), (3, 0, 20967), (3, 1, 12), (3, 24, 4095), (3, 25, 5),
              (3, 26, -1200), (3, 27, 900)] ∧
          (∀ e ∈ events, Advertised created.history e) ∧
          ∀ e ∈ events, e.type = 3 → e.code = 26 → ∀ r ∈ advertisedRanges created.history, r.axis.code = e.code →
            r.min ≤ e.value ∧ e.value ≤ r.max := by
  intro created before l
  have hcreated : created.result = .ok {} := by rfl
  have hbefore : before.getLast? = some .sync := by decide
  have hlength : 15 ≤ leaningReport.length := by decide
  refine ⟨hcreated, hbefore, hlength, ?_⟩
  intro s
  have hok : ∀ k ∈ s.calls, k.result = .ok () := by decide
  have hframes : ∀ f ∈ [before], f.getLast? = some .sync := by simpa using hbefore
  obtain ⟨sample, events, hsample, hwritten, hnumbers, hadvertised, hrange⟩ :=
    writes_were_advertised Bench.Desk.answerUinput {} hcreated hframes l hlength hok
  have htool : (l.next sample).tool = .eraser := by
    obtain rfl := Except.ok.inj hsample
    decide
  rw [htool] at hnumbers
  refine ⟨hok, sample, events, hsample, hwritten, hnumbers.trans (by decide), hadvertised, ?_⟩
  intro e he htype hcode r hr hrcode
  exact (hrange e he .tiltX htype hcode r hr hrcode).2 (by decide)

end PenRail.Uinput
