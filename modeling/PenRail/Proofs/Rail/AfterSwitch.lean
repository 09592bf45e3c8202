import PenRail.Proofs.Rail.ChipContents

/-!
# What a switch-on leaves behind

From the acts of a switch-on, what the chip holds afterwards. An attempt to set or clear the on/off bit is all or nothing. So a
switch-on that succeeds leaves the bit set, with power good seen last; and one that fails leaves it set only if it was set
before, if power good could not be read, or if power good never came and the switch-off failed. All this is read off the acts
themselves, given that the mode bytes read are the ones that the chip held.
-/

namespace PenRail.Rail

open Bench.Chip (store)
open Bus (RegisterChip)

/-- The on/off bit is set. -/
def BitSet (registers : UInt8 → UInt8) : Prop :=
  registers Register.operationMode &&& Register.onOff ≠ 0

/-- The level of a reading of the power-good line. -/
def reading? : Exchange interface → Option (Except String Bool)
  | ⟨.powerGood, level⟩ => some level
  | _ => none

/-- A transfer by which the on/off bit is set or cleared: the mode byte is read, or written with the bit as wanted. -/
def SetsOnOff (on : Bool) (t : Bus.Transfer) : Prop :=
  t = .exchange [Register.operationMode] 1 ∨ ∃ mode, t = .write [Register.operationMode, modeByte on mode]

variable {registers : UInt8 → UInt8} {on : Bool} {h : History interface}

theorem bitSet_store_modeByte (mode : UInt8) : BitSet (store registers Register.operationMode (modeByte on mode)) ↔ on = true := by
  rw [BitSet, RegisterChip.store_same, modeByte_and_onOff]
  cases on <;> decide

/-! ## An attempt -/

/-- The registers with the on/off bit as wanted, or as they were. -/
theorem Attempt.all_or_nothing {r : Except Bus.Failure Unit} (ha : Attempt on h r) (told : Told registers h) :
    (r = .ok () ∧ registersAfter registers h =
        store registers Register.operationMode (modeByte on (registers Register.operationMode))) ∨
      ∃ failure, r = .error failure ∧ registersAfter registers h = registers := by
  cases ha with
  | unread failure => exact .inr ⟨failure, rfl, rfl⟩
  | empty => exact .inr ⟨_, rfl, rfl⟩
  | @skipped mode rest same =>
    obtain rfl : mode = registers Register.operationMode := told [] _ _ rfl mode rest rfl
    refine .inl ⟨rfl, ?_⟩
    rw [same, RegisterChip.store_self]
    rfl
  | @written mode rest differs reply =>
    obtain rfl : mode = registers Register.operationMode := told [] _ _ rfl mode rest rfl
    rcases r with failure | u
    · exact .inr ⟨failure, rfl, rfl⟩
    · exact .inl ⟨rfl, rfl⟩

theorem Attempt.registersAfter_of_ne {r : Except Bus.Failure Unit} (ha : Attempt on h r) {register : UInt8}
    (hr : register ≠ Register.operationMode) : registersAfter registers h register = registers register := by
  cases ha with
  | unread | empty | skipped => rfl
  | written differs reply =>
    rcases r with failure | u
    · rfl
    · exact RegisterChip.store_of_ne _ _ hr

theorem Attempt.readings {r : Except Bus.Failure Unit} (ha : Attempt on h r) : h.filterMap reading? = [] := by
  cases ha <;> rfl

theorem Attempt.ne_nil {r : Except Bus.Failure Unit} (ha : Attempt on h r) : h ≠ [] := by
  cases ha <;> exact nofun

/-- Where every read brings a byte, an attempt fails at one of its transfers. -/
theorem Attempt.fails {failure : Bus.Failure} (ha : Attempt on h (.error failure)) (hfull : modeRead (.ok []) ∉ h) :
    ∃ before t, h = before ++ [⟨.transfer t, .error failure⟩] ∧ SetsOnOff on t ∧ before.filterMap reading? = [] := by
  cases ha with
  | unread => exact ⟨[], _, rfl, .inl rfl, rfl⟩
  | empty => exact absurd List.mem_cons_self hfull
  | @written mode rest => exact ⟨[modeRead (.ok (mode :: rest))], _, rfl, .inr ⟨mode, rfl⟩, rfl⟩

/-! ## A switch-on -/

theorem registersAfter_lows (registers : UInt8 → UInt8) (n : Nat) : registersAfter registers (lows n) = registers := by
  induction n with
  | zero => rfl
  | succ n ih => exact ih

theorem readings_lows (n : Nat) : (lows n).filterMap reading? = List.replicate n (.ok false) := by
  induction n with
  | zero => rfl
  | succ n ih => exact congrArg (.ok false :: ·) ih

theorem SwitchesOn.registersAfter_of_ne {r : Result Unit} (hon : SwitchesOn h r) {register : UInt8}
    (hr : register ≠ Register.operationMode) : registersAfter registers h register = registers register := by
  cases hon with
  | already => rfl
  | refused sent => exact sent.registersAfter_of_ne hr
  | good sent | unreadable sent =>
    simp only [registersAfter_append, registersAfter_lows]
    exact sent.registersAfter_of_ne hr
  | timeout sent tried | timeoutRailOn sent tried =>
    simp only [registersAfter_append, registersAfter_lows]
    exact (tried.registersAfter_of_ne hr).trans (sent.registersAfter_of_ne hr)

/-- An attempt that succeeds has left the bit as wanted. -/
theorem Attempt.bitSet_of_ok (ha : Attempt on h (.ok ())) (told : Told registers h) :
    BitSet (registersAfter registers h) ↔ on = true := by
  rcases ha.all_or_nothing told with ⟨-, hafter⟩ | ⟨_, hfail, -⟩
  · rw [hafter, bitSet_store_modeByte]
  · cases hfail

/-- An attempt that fails has changed no register. -/
theorem Attempt.registersAfter_of_error {failure : Bus.Failure} (ha : Attempt on h (.error failure))
    (told : Told registers h) : registersAfter registers h = registers := by
  rcases ha.all_or_nothing told with ⟨hok, -⟩ | ⟨_, -, hafter⟩
  · cases hok
  · exact hafter

/-- A switch-on that did something and succeeded leaves the bit set, and has seen power good last. -/
theorem SwitchesOn.of_ok (hon : SwitchesOn h (.ok ())) (hacts : h ≠ []) (told : Told registers h) :
    BitSet (registersAfter registers h) ∧ (h.filterMap reading?).getLast? = some (.ok true) := by
  cases hon with
  | already => exact absurd rfl hacts
  | good sent hj =>
    refine ⟨?_, ?_⟩
    · rw [registersAfter_append, registersAfter_append, registersAfter_lows]
      exact (sent.bitSet_of_ok (told_append.1 told).1).2 rfl
    · rw [List.filterMap_append, List.filterMap_append, ← List.append_assoc, List.getLast?_append]
      rfl

/-- Where every read brings a byte, a switch-on that failed leaves the bit set only if it was set before, if power good could
not be read, or if the line was low to the end and a transfer of the switch-off failed. -/
theorem SwitchesOn.of_error {e : Error} (hon : SwitchesOn h (.error e)) (told : Told registers h)
    (hfull : modeRead (.ok []) ∉ h) (hset : BitSet (registersAfter registers h)) :
    BitSet registers ∨ (∃ reason, (h.filterMap reading?).getLast? = some (.error reason)) ∨
      ∃ earlier t failure later, h = earlier ++ ⟨.transfer t, .error failure⟩ :: later ∧ SetsOnOff false t ∧
        earlier.filterMap reading? = List.replicate 500 (.ok false) ∧ later.filterMap reading? = [] := by
  cases hon with
  | refused sent =>
    rw [sent.registersAfter_of_error told] at hset
    exact .inl hset
  | unreadable sent hj reason =>
    refine .inr (.inl ⟨reason, ?_⟩)
    rw [List.filterMap_append, List.filterMap_append, ← List.append_assoc, List.getLast?_append]
    rfl
  | @timeout on off sent tried =>
    rw [registersAfter_append, registersAfter_append, registersAfter_append, registersAfter_lows] at hset
    obtain ⟨-, told⟩ := told_append.1 told
    obtain ⟨-, told⟩ := told_append.1 told
    obtain ⟨told, -⟩ := told_append.1 told
    rw [registersAfter_lows] at told
    cases (tried.bitSet_of_ok told).1 hset
  | @timeoutRailOn on off failure sent tried =>
    have hfull : modeRead (.ok []) ∉ off := fun hin => hfull (by simp [hin])
    obtain ⟨before, t, rfl, hsets, hreadings⟩ := tried.fails hfull
    refine .inr (.inr ⟨on ++ (lows 500 ++ before), t, failure, [rampDown], ?_, hsets, ?_, rfl⟩)
    · simp only [List.append_assoc, List.cons_append, List.nil_append]
    · rw [List.filterMap_append, List.filterMap_append, sent.readings, readings_lows, hreadings, List.append_nil]
      rfl

end PenRail.Rail
