import PenRail.Proofs.Rail.ChipContents
import PenRail.Proofs.Rail.RampDown
import PenRail.Proofs.Rail.StoredVcom

/-!
# The writes of a session

Each operation has its own writes, and a change of the on/off bit goes by what the chip holds at that moment: so no session
changes any other bit of the mode register, whatever the chip answers. `Method.MayWrite` lists the writes, the main
result says that there are no others, and what follows for the registers and for the view.
-/

namespace PenRail.Rail

open Bench.Chip (store)
open Bus (RegisterChip)
open Program (ends_bind ends_done ends_request)

/-- The writes an operation may try, given what it has done so far and the mode byte that the chip then holds. A switch-on
sets the on/off bit before it reads the line, and clears it after that. -/
def Method.MayWrite (m : Method) (earlier : History interface) (mode : UInt8) (bytes : Bytes) : Prop :=
  match m with
  | .init => bytes = [Register.powerOnDelay, 0]
  | .enable => bytes = [Register.operationMode, modeByte (!earlier.any isReading) mode]
  | .disable => bytes = [Register.operationMode, modeByte false mode]
  | .setVoltage _ | .setVcom _ =>
    (earlier.filterMap write? = [] ∧ ∃ low, bytes = [Register.vcomLow, low]) ∨
      ∃ low high, earlier.filterMap write? = [[Register.vcomLow, low]] ∧ high ≤ 1 ∧ bytes = [Register.vcomHigh, high]
  | .isEnabled | .waitPowerGood | .readStatus | .faultState | .powerGood | .getVoltage | .getVcom | .getMicrovolts
  | .readTemperature => False

/-- Every write in the history is allowed, given the history before it and the mode byte that the chip holds there. -/
def WritesOnly (may : History interface → UInt8 → Bytes → Prop) (registers : UInt8 → UInt8) (h : History interface) : Prop :=
  Throughout (fun earlier x _ => ∀ bytes, write? x = some bytes →
    may earlier (registersAfter registers earlier Register.operationMode) bytes) h

section
variable {may may' : History interface → UInt8 → Bytes → Prop} {registers : UInt8 → UInt8} {h h₁ h₂ : History interface}

theorem WritesOnly.append (only₁ : WritesOnly may registers h₁)
    (only₂ : WritesOnly (fun earlier => may (h₁ ++ earlier)) (registersAfter registers h₁) h₂) :
    WritesOnly may registers (h₁ ++ h₂) := by
  refine throughout_append.2 ⟨only₁, ?_⟩
  simpa only [WritesOnly, registersAfter_append] using only₂

theorem WritesOnly.mono (only : WritesOnly may registers h)
    (hmay : ∀ earlier mode bytes, may earlier mode bytes → may' earlier mode bytes) : WritesOnly may' registers h :=
  Throughout.mono only fun _ _ _ hx bytes hbytes => hmay _ _ _ (hx bytes hbytes)

theorem writesOnly_of_no_write (hnone : ∀ x ∈ h, write? x = none) : WritesOnly may registers h := by
  rintro earlier x later rfl bytes hbytes
  cases (hnone x (by simp)).symm.trans hbytes

/-! ## The switches -/

theorem write?_lows (n : Nat) : ∀ x ∈ lows n, write? x = none := by
  intro x hx
  rcases mem_lows hx with rfl | rfl <;> rfl

theorem any_isReading_lows (n : Nat) : (lows (n + 1)).any isReading = true := rfl

/-- Setting or clearing the on/off bit writes the mode byte that the chip holds with the bit set or cleared. -/
theorem Attempt.writesOnly {on : Bool} {r : Except Bus.Failure Unit} (ha : Attempt on h r) (told : Told registers h) :
    WritesOnly (fun earlier mode bytes => earlier.any isReading = false ∧ bytes = [Register.operationMode, modeByte on mode])
      registers h := by
  cases ha with
  | unread | empty | skipped => exact writesOnly_of_no_write (by simp [modeRead, write?])
  | @written mode rest differs reply =>
    obtain rfl : mode = registers Register.operationMode := (throughout_cons.1 told).1 mode rest rfl
    simp [WritesOnly, write?, modeRead, modeWrite, isReading, stored]

theorem SwitchesOn.writesOnly {r : Result Unit} (hon : SwitchesOn h r) (told : Told registers h) :
    WritesOnly Method.enable.MayWrite registers h := by
  have hsets {on : History interface} {outcome : Except Bus.Failure Unit} (sent : Attempt true on outcome)
      (told : Told registers on) : WritesOnly Method.enable.MayWrite registers on := by
    refine (sent.writesOnly told).mono fun earlier mode bytes hmay => ?_
    simp [Method.MayWrite, hmay.1, hmay.2]
  have hlooks {on : History interface} (sent : Attempt true on (.ok ())) (j : Nat) (level : Except String Bool)
      (told : Told registers (on ++ (lows j ++ [⟨.powerGood, level⟩]))) :
      WritesOnly Method.enable.MayWrite registers (on ++ (lows j ++ [⟨.powerGood, level⟩])) := by
    refine (hsets sent (told_append.1 told).1).append (writesOnly_of_no_write fun x hx => ?_)
    rcases List.mem_append.1 hx with hx | hx
    · exact write?_lows j x hx
    · obtain rfl := List.mem_singleton.1 hx
      rfl
  -- The attempt to switch off comes after the readings, which is how its write is told from that of the switch-on.
  have hgaveUp {on off : History interface} {outcome : Except Bus.Failure Unit} (sent : Attempt true on (.ok ()))
      (tried : Attempt false off outcome) (told : Told registers (on ++ (lows 500 ++ (off ++ [rampDown])))) :
      WritesOnly Method.enable.MayWrite registers (on ++ (lows 500 ++ (off ++ [rampDown]))) := by
    obtain ⟨toldOn, told⟩ := told_append.1 told
    obtain ⟨-, told⟩ := told_append.1 told
    obtain ⟨toldOff, -⟩ := told_append.1 told
    refine (hsets sent toldOn).append ((writesOnly_of_no_write (write?_lows 500)).append ?_)
    refine ((tried.writesOnly toldOff).mono ?_).append (writesOnly_of_no_write (by simp [write?, rampDown]))
    rintro earlier mode bytes ⟨-, rfl⟩
    have hlooked : (on ++ (lows 500 ++ earlier)).any isReading = true := by
      rw [List.any_append, List.any_append, any_isReading_lows 499, Bool.true_or, Bool.or_true]
    simp only [Method.MayWrite, hlooked, Bool.not_true]
  cases hon with
  | already => exact throughout_nil
  | refused sent => exact hsets sent told
  | good sent => exact hlooks sent _ _ told
  | unreadable sent _ reason => exact hlooks sent _ _ told
  | timeout sent tried => exact hgaveUp sent tried told
  | timeoutRailOn sent tried => exact hgaveUp sent tried told

/-! ## The other operations -/

/-- How far a request for VCOM goes: a value that is out of range is not written, and the high byte is written once the
low byte has been. -/
inductive WritesVcom : History interface → Prop
  | outOfRange : WritesVcom []
  | low (low : UInt8) (failure : Bus.Failure) : WritesVcom [⟨.transfer (.write [Register.vcomLow, low]), .error failure⟩]
  | both (low : UInt8) {high : UInt8} (hhigh : high ≤ 1) (reply : Except Bus.Failure Unit) :
      WritesVcom [⟨.transfer (.write [Register.vcomLow, low]), .ok ()⟩, ⟨.transfer (.write [Register.vcomHigh, high]), reply⟩]

namespace Vcom

/-- A value that is asked for has one bit in the high byte. -/
theorem highByte_code_le (millivolts : Int32) : highByte (code millivolts) ≤ 1 := by
  rw [UInt8.le_iff_toNat_le, highByte_toNat, code, UInt16.toNat_and, show Register.vcomMask.toNat = 2 ^ 9 - 1 from rfl,
    Nat.and_two_pow_sub_one_eq_mod, show (1 : UInt8).toNat = 1 from rfl]
  omega

theorem ends_write {millivolts : Int32} {r : Result Unit} (he : (write millivolts).Ends h r) : WritesVcom h := by
  unfold write at he
  split at he
  · cases ends_writeCode he with
    | low failure => exact .low _ failure
    | both reply => exact .both _ (highByte_code_le millivolts) reply
  · obtain ⟨rfl, rfl⟩ := ends_done.1 he
    exact .outOfRange

theorem ends_writeSigned {millivolts : Int32} {r : Result Unit} (he : (writeSigned millivolts).Ends h r) :
    WritesVcom h := by
  unfold writeSigned at he
  split at he
  · exact ends_write he
  · obtain ⟨rfl, rfl⟩ := ends_done.1 he
    exact .outOfRange

end Vcom

theorem WritesVcom.acts_eq (hv : WritesVcom h) : acts h = h := by
  cases hv <;> rfl

theorem WritesVcom.writesOnly (hv : WritesVcom h) (millivolts : Int32) :
    WritesOnly (Method.setVoltage millivolts).MayWrite registers h := by
  cases hv with
  | outOfRange => exact throughout_nil
  | low => simp [WritesOnly, Method.MayWrite, write?]
  | both _ hhigh => simp [WritesOnly, Method.MayWrite, write?, hhigh]

/-- An operation with no registers of its own writes nothing. -/
theorem Call.Possible.no_write {k : Call} (hk : k.Possible) (hfootprint : k.operation.footprint = []) :
    ∀ x ∈ k.history, write? x = none := by
  intro x hx
  have hspares := (only_call_footprint k.before k.operation).ends hk x hx
  obtain ⟨q, r⟩ := x
  cases q with
  | powerGood | delay | log => rfl
  | transfer t =>
    cases t with
    | read | exchange => rfl
    | write bytes =>
      obtain ⟨register, hin, -⟩ := hspares bytes rfl
      rw [hfootprint] at hin
      cases hin

/-- Every write that an operation tries is one of its own. -/
theorem Call.Possible.writesOnly {k : Call} (hk : k.Possible) (told : Told registers (acts k.history)) :
    WritesOnly k.operation.MayWrite registers (acts k.history) := by
  have hnone (hfootprint : k.operation.footprint = []) : WritesOnly k.operation.MayWrite registers (acts k.history) :=
    writesOnly_of_no_write fun x hx => hk.no_write hfootprint x (List.mem_filter.1 hx).1
  obtain ⟨c, m, r, c', h⟩ := k
  change (c.call m).Ends h (r, c') at hk
  cases m with
  | init =>
    obtain ⟨_, hclear, -⟩ := ends_keep.1 hk
    obtain ⟨_, reply, _, rfl, hwrite, hdone⟩ := ends_bind.1 hclear
    obtain rfl := ends_onWrite.1 hwrite
    obtain ⟨rfl, rfl⟩ := ends_done.1 hdone
    change WritesOnly Method.init.MayWrite registers [⟨.transfer (.write [Register.powerOnDelay, 0]), reply⟩]
    simp [WritesOnly, write?, Method.MayWrite]
  | enable =>
    obtain ⟨_, hon, -⟩ := ends_change.1 hk
    exact (acts_enable hon).writesOnly told
  | disable =>
    obtain ⟨_, hoff, -⟩ := ends_change.1 hk
    obtain ⟨off, outcome, hattempt, hacts, -⟩ := acts_disable hoff
    rw [hacts] at told ⊢
    exact ((hattempt.writesOnly (told_append.1 told).1).mono fun _ _ _ hmay => hmay.2).append
      (writesOnly_of_no_write (by simp [write?, rampDown]))
  | setVoltage millivolts =>
    obtain ⟨_, hwrite, -⟩ := ends_keep.1 hk
    have hv := Vcom.ends_write hwrite
    rw [hv.acts_eq]
    exact hv.writesOnly millivolts
  | setVcom millivolts =>
    obtain ⟨_, hwrite, -⟩ := ends_keep.1 hk
    have hv := Vcom.ends_writeSigned hwrite
    rw [hv.acts_eq]
    exact hv.writesOnly millivolts
  | _ => exact hnone rfl

end

/-! ## What no write changes -/

/-- A write of the mode byte with the on/off bit set or cleared, or of another register of the controller's. -/
def OwnWrite (mode : UInt8) (bytes : Bytes) : Prop :=
  (∃ on, bytes = [Register.operationMode, modeByte on mode]) ∨
    ∃ register ∈ [Register.vcomLow, Register.vcomHigh, Register.powerOnDelay], ∃ value, bytes = [register, value]

theorem Method.MayWrite.own {m : Method} {earlier : History interface} {mode : UInt8} {bytes : Bytes}
    (hmay : m.MayWrite earlier mode bytes) : OwnWrite mode bytes := by
  cases m with
  | enable | disable => exact .inl ⟨_, hmay⟩
  | init => exact .inr ⟨_, by simp, _, hmay⟩
  | setVoltage | setVcom =>
    rcases hmay with ⟨-, low, rfl⟩ | ⟨-, high, -, -, rfl⟩
    · exact .inr ⟨_, by simp, low, rfl⟩
    · exact .inr ⟨_, by simp, high, rfl⟩
  | _ => exact hmay.elim

theorem OwnWrite.pair {mode : UInt8} {bytes : Bytes} (hown : OwnWrite mode bytes) :
    ∃ register value, bytes = [register, value] := by
  rcases hown with ⟨on, rfl⟩ | ⟨register, -, value, rfl⟩
  · exact ⟨_, _, rfl⟩
  · exact ⟨_, _, rfl⟩

/-- The registers that the controller does not write are the same, and so are the mode bits but the on/off bit. -/
structure SameElsewhere (registers start : UInt8 → UInt8) : Prop where
  others : ∀ r ∉ [Register.operationMode, Register.vcomLow, Register.vcomHigh, Register.powerOnDelay], registers r = start r
  modeBits : registers Register.operationMode &&& ~~~Register.onOff = start Register.operationMode &&& ~~~Register.onOff

namespace SameElsewhere

variable {registers start : UInt8 → UInt8}

theorem refl (start : UInt8 → UInt8) : SameElsewhere start start :=
  ⟨fun _ _ => rfl, rfl⟩

theorem trans {between : UInt8 → UInt8} (later : SameElsewhere registers between) (earlier : SameElsewhere between start) :
    SameElsewhere registers start :=
  ⟨fun r hr => (later.others r hr).trans (earlier.others r hr), later.modeBits.trans earlier.modeBits⟩

theorem of_store {register value : UInt8} (hbytes : OwnWrite (start Register.operationMode) [register, value]) :
    SameElsewhere (store start register value) start := by
  rcases hbytes with ⟨on, hon⟩ | ⟨register', hown, value', hbytes⟩
  · obtain ⟨rfl, rfl⟩ : register = _ ∧ value = _ := by simpa using hon
    refine ⟨fun r hr => RegisterChip.store_of_ne _ _ fun h => hr (by simp [h]), ?_⟩
    rw [RegisterChip.store_same, modeByte_and_not_onOff]
  · obtain ⟨rfl, rfl⟩ : register = _ ∧ value = _ := by simpa using hbytes
    refine ⟨fun r hr => RegisterChip.store_of_ne _ _ fun h => hr (List.mem_cons_of_mem _ (h ▸ hown)), ?_⟩
    rw [RegisterChip.store_of_ne]
    rintro rfl
    revert hown
    decide

theorem of_stored {x : Exchange interface}
    (hx : ∀ bytes, write? x = some bytes → OwnWrite (start Register.operationMode) bytes) :
    SameElsewhere (stored start x) start := by
  cases hwrite : write? x with
  | none =>
    rw [stored_of_no_write start hwrite]
    exact refl start
  | some bytes =>
    have hown := hx bytes hwrite
    obtain ⟨q, r⟩ := x
    cases q with
    | powerGood | delay | log => cases hwrite
    | transfer t =>
      cases t with
      | read | exchange => cases hwrite
      | write bytes' =>
        obtain rfl : bytes' = bytes := Option.some.inj hwrite
        obtain ⟨register, value, rfl⟩ := hown.pair
        cases r with
        | error failure =>
          rw [stored_of_error]
          exact refl start
        | ok => exact of_store hown

/-- However far a history has gone: as long as there are only such writes, all else is as it was. -/
theorem of_writesOnly {h earlier later : History interface} (only : WritesOnly (fun _ => OwnWrite) start h)
    (hcut : h = earlier ++ later) : SameElsewhere (registersAfter start earlier) start := by
  induction earlier generalizing start h with
  | nil => exact refl start
  | cons x earlier ih =>
    subst hcut
    -- Each write is judged by the registers as they are then, so the rest starts from what this exchange left.
    obtain ⟨hx, hrest⟩ := throughout_cons.1 only
    exact (ih hrest rfl).trans (of_stored hx)

end SameElsewhere

/-! ## What changes the view -/

/-- Only the switches change more of the view than the last fault, and only what reads the status changes that. -/
theorem Call.Possible.view {k : Call} (hk : k.Possible) :
    (k.operation ≠ .enable → k.operation ≠ .disable → k.after = { k.before with lastFault := k.after.lastFault }) ∧
      (k.operation ≠ .readStatus → k.operation ≠ .faultState → k.after.lastFault = k.before.lastFault) := by
  obtain ⟨c, m, r, c', h⟩ := k
  change (c.call m).Ends h (r, c') at hk
  cases m with
  | enable =>
    obtain ⟨o, hon, heq⟩ := ends_change.1 hk
    obtain ⟨-, rfl⟩ := Prod.mk.inj heq
    refine ⟨fun h => absurd rfl h, fun _ _ => ?_⟩
    rcases ends_enable hon with ⟨-, -, rfl⟩ | ⟨-, hswitched, -⟩
    · rfl
    · cases hswitched <;> rfl
  | disable =>
    obtain ⟨o, hoff, heq⟩ := ends_change.1 hk
    obtain ⟨-, rfl⟩ := Prod.mk.inj heq
    refine ⟨fun _ h => absurd rfl h, fun _ _ => ?_⟩
    obtain ⟨-, ⟨rfl, -⟩ | ⟨failure, before, rfl, -⟩⟩ := ends_disable hoff
    · rfl
    · rfl
  | readStatus | faultState =>
    obtain ⟨fault, hview⟩ := ends_call_view rfl hk
    obtain rfl : c' = { c with lastFault := fault } := hview
    exact ⟨fun _ _ => rfl, by simp⟩
  | _ =>
    obtain ⟨_, -, heq⟩ := ends_keep.1 hk
    obtain ⟨-, rfl⟩ := Prod.mk.inj heq
    exact ⟨fun _ _ => rfl, fun _ _ => rfl⟩

/-! ## A session -/

/-- What a session on a plant keeps: the chip holds what the acts say, and each call tried its own writes only. -/
structure Accounted (start : UInt8 → UInt8) (s : Session Plant) : Prop where
  registers : s.state.registers = registersAfter start (trace s.calls)
  writes : Throughout (fun earlier k _ =>
    WritesOnly k.operation.MayWrite (registersAfter start (trace earlier)) (acts k.history)) s.calls

namespace Accounted

theorem next {start : UInt8 → UInt8} {s : Session Plant} (hs : Accounted start s) (m : Method) :
    Accounted start (s.next Controller.call Plant.answer m) := by
  have hlast : trace [s.made Controller.call Plant.answer m] = acts (s.made Controller.call Plant.answer m).history := by
    simp [trace]
  constructor
  · change ((s.view.call m).play Plant.answer s.state).state.registers = registersAfter start (trace (s.calls ++ [_]))
    rw [trace_append, hlast, registersAfter_append, registersAfter_acts, ← hs.registers]
    exact registers_play _ _
  · have htold : Told s.state.registers (acts (s.made Controller.call Plant.answer m).history) := (told_play _ _).acts
    have hwrites := (Session.possible_made Plant.answer s m).writesOnly htold
    rw [hs.registers] at hwrites
    exact throughout_append.2 ⟨hs.writes, by simpa using hwrites⟩

theorem run (methods : List Method) (w : Plant) :
    Accounted w.registers (Course.run Controller.call Plant.answer methods {} w) :=
  Course.always Controller.call Plant.answer (Accounted w.registers) ⟨rfl, throughout_nil⟩ fun _ m _ hs => hs.next m

/-- All that the session wrote are writes of the controller's own. -/
theorem own {start : UInt8 → UInt8} {s : Session Plant} (hs : Accounted start s) :
    WritesOnly (fun _ => OwnWrite) start (trace s.calls) := by
  refine throughout_flatMap.2 (hs.writes.mono fun earlier k _ hk => ?_)
  refine Throughout.mono hk fun before x _ hx bytes hbytes => ?_
  rw [← trace, registersAfter_append]
  exact (hx bytes hbytes).own

end Accounted

/-- The footprint of a session. After any operations on a fresh controller, over any chip, with any failures and any readings
of the line: every write that a call tried, whatever became of it, is one its operation may try, given what the call had done
and the mode byte that the chip held at that place. However far the session has gone, the registers that are not the
controller's and the mode bits but the on/off bit are as they were at the start. Only the switches change more of the view
than the last fault, and only what reads the status changes that. -/
theorem session_register_writes (methods : List Method) (w : Plant) :
    let s : Session Plant := Course.run Controller.call Plant.answer methods {} w
    s.state.registers = registersAfter w.registers (trace s.calls) ∧
      (∀ earlier k later, s.calls = earlier ++ k :: later →
        ∀ before x after, acts k.history = before ++ x :: after → ∀ bytes, write? x = some bytes →
          k.operation.MayWrite before (registersAfter w.registers (trace earlier ++ before) Register.operationMode) bytes) ∧
      (∀ earlier later, trace s.calls = earlier ++ later →
        SameElsewhere (registersAfter w.registers earlier) w.registers) ∧
      ∀ k ∈ s.calls,
        (k.operation ≠ .enable → k.operation ≠ .disable → k.after = { k.before with lastFault := k.after.lastFault }) ∧
          (k.operation ≠ .readStatus → k.operation ≠ .faultState → k.after.lastFault = k.before.lastFault) := by
  intro s
  have hs : Accounted w.registers s := .run methods w
  refine ⟨hs.registers, ?_, fun earlier later hcut => .of_writesOnly hs.own hcut, ?_⟩
  · intro earlier k later hcalls before x after hacts bytes hbytes
    rw [registersAfter_append]
    exact hs.writes earlier k later hcalls before x after hacts bytes hbytes
  · exact fun k hk => (Session.possible_run Plant.answer methods w k hk).view

/-- Where the fourth transfer fails: the switch-on sets one bit of the mode byte that the chip holds, of the first request for
VCOM nothing is written but the low byte, and the second one writes both. No register but 0, 1, 2 and 6 has changed. -/
theorem session_register_writes_stubborn :
    let s : Session Plant :=
      Course.run Controller.call Plant.answer [.init, .enable, .setVcom (-2560), .setVoltage 5000] {} Plant.stubborn
    let clear : Exchange interface := ⟨.transfer (.write [0x06, 0x00]), .ok ()⟩
    (trace s.calls).filterMap write? = [[0x06, 0x00], [0x00, 0x85], [0x01, 0x00], [0x01, 0xf4], [0x02, 0x01]] ∧
      Method.enable.MayWrite [modeRead (.ok [0x05])]
        (registersAfter Plant.stubborn.registers [clear, modeRead (.ok [0x05])] Register.operationMode) [0x00, 0x85] ∧
      (∀ r ∉ [0x00, 0x01, 0x02, 0x06], s.state.registers r = 0x05) ∧ s.state.registers 0x00 &&& 0x7f = 0x05 := by
  intro s clear
  obtain ⟨hregisters, hwrites, hsame, -⟩ :=
    session_register_writes [.init, .enable, .setVcom (-2560), .setVoltage 5000] Plant.stubborn
  have helsewhere : SameElsewhere s.state.registers Plant.stubborn.registers := by
    rw [show s.state.registers = _ from hregisters]
    exact hsame _ [] (List.append_nil _).symm
  refine ⟨by decide, ?_, helsewhere.others, helsewhere.modeBits⟩
  exact hwrites [_] _ [_, _] rfl [modeRead (.ok [0x05])] (modeWrite 0x85 (.ok ())) [sawHigh] rfl _ rfl

end PenRail.Rail
