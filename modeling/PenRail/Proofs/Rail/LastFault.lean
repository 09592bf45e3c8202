import PenRail.Proofs.Rail.RegisterWrites

/-!
# The last fault

The fault flag byte says whether power is good, in bit 0, and which fault is latched, in the four bits above (`Status.byte`).
With any bit above these it says nothing. Two operations read the byte and decode it, one answers the status and the other
the fault in words; a third one looks at bit 0 alone. `StatusRead` lists how such a read goes: only one that was decoded
changes the view. So over a session, with anyone to answer, the controller remembers the fault that it reported last.
-/

namespace PenRail.Rail

open Bus (RegisterChip)
open Program (ends_ask ends_done)

/-! ## The fault flag byte -/

/-- The number of a fault. -/
def Fault.number : Fault → Nat
  | .none => 0
  | .uvpVp => 1
  | .uvpVn => 2
  | .uvpVpos => 3
  | .uvpVneg => 4
  | .uvpVddh => 5
  | .uvpVee => 6
  | .scpVp => 7
  | .scpVn => 8
  | .scpVpos => 9
  | .scpVneg => 10
  | .scpVddh => 11
  | .scpVee => 12
  | .scpVcom => 13
  | .uvlo => 14
  | .thermalShutdown => 15

/-- The fault flag byte of a status: power good in bit 0, and the number of the fault above it. -/
def Status.byte (s : Status) : UInt8 :=
  .ofNat (2 * s.fault.number + s.powerGood.toNat)

/-- One of the bits is set that no status has. -/
def HasUnknownBit (flags : UInt8) : Prop :=
  ∃ i ∈ [5, 6, 7], flags.toNat.testBit i = true

namespace Fault

theorem number_lt (f : Fault) : f.number < 16 := by
  cases f <;> decide

theorem table_number (f : Fault) : table[f.number]? = some f := by
  cases f <;> rfl

theorem isFault_iff_number (f : Fault) : f.isFault = true ↔ 0 < f.number := by
  cases f <;> decide

/-- Sixteen numbers are taken. -/
theorem exists_number_eq {n : Nat} (h : n < 16) : ∃ f : Fault, f.number = n := by
  have hnumbers : table.map number = List.range 16 := by decide
  have hn : n ∈ table.map number := by
    rw [hnumbers]
    exact List.mem_range.2 h
  obtain ⟨f, -, hf⟩ := List.mem_map.1 hn
  exact ⟨f, hf⟩

/-- No two faults are described in the same words. -/
theorem find_description (f : Fault) : table.find? (·.description == f.description) = some f := by
  cases f <;> decide

end Fault

theorem Status.byte_toNat (s : Status) : s.byte.toNat = 2 * s.fault.number + s.powerGood.toNat := by
  have hnumber := s.fault.number_lt
  have hgood := s.powerGood.toNat_le
  exact UInt8.toNat_ofNat_of_lt' (by change _ < 256; omega)

/-- The unknown bits are those from 32 up. -/
theorem hasUnknownBit_iff {flags : UInt8} : HasUnknownBit flags ↔ 32 ≤ flags.toNat := by
  constructor
  · rintro ⟨i, hi, hset⟩
    have hfive : 5 ≤ i := by
      simp only [List.mem_cons, List.not_mem_nil, or_false] at hi
      omega
    calc
      32 = 2 ^ 5 := rfl
      _ ≤ 2 ^ i := Nat.pow_le_pow_right (by decide) hfive
      _ ≤ flags.toNat := Nat.ge_two_pow_of_testBit hset
  · intro h
    obtain ⟨i, hfive, hset⟩ := Nat.exists_ge_and_testBit_of_ge_two_pow (n := 5) h
    refine ⟨i, ?_, hset⟩
    have height : i < 8 := by
      refine Nat.lt_of_not_le fun hle => ?_
      have hflags : flags.toNat < 2 ^ i := Nat.lt_of_lt_of_le flags.toNat_lt (Nat.pow_le_pow_right (by decide) hle)
      rw [Nat.testBit_lt_two_pow hflags] at hset
      cases hset
    simp only [List.mem_cons, List.not_mem_nil, or_false]
    omega

/-- A byte has an unknown bit or is that of a status. -/
theorem hasUnknownBit_or_exists_byte (flags : UInt8) : HasUnknownBit flags ∨ ∃ s : Status, flags = s.byte := by
  by_cases h : HasUnknownBit flags
  · exact .inl h
  · rw [hasUnknownBit_iff, Nat.not_le] at h
    obtain ⟨fault, hfault⟩ := Fault.exists_number_eq (n := flags.toNat / 2) (by omega)
    refine .inr ⟨⟨decide (flags.toNat % 2 = 1), fault⟩, UInt8.toNat_inj.1 ?_⟩
    rw [Status.byte_toNat, hfault]
    rcases Nat.mod_two_eq_zero_or_one flags.toNat with heven | hodd
    · simp only [heven, Nat.zero_ne_one, decide_false, Bool.toNat_false]
      omega
    · simp only [hodd, decide_true, Bool.toNat_true]
      omega

theorem shiftRight_one_toNat (flags : UInt8) : (flags >>> 1).toNat = flags.toNat / 2 := by
  rw [UInt8.toNat_shiftRight]
  exact Nat.shiftRight_eq_div_pow _ 1

theorem isPowerGood_eq_testBit (flags : UInt8) : isPowerGood flags = flags.toNat.testBit 0 := by
  have hand : (flags &&& Register.powerGood).toNat = flags.toNat % 2 := by
    rw [UInt8.toNat_and]
    exact Nat.and_one_is_mod _
  rw [isPowerGood, Bool.eq_iff_iff, bne_iff_ne, ne_eq, ← UInt8.toNat_inj, hand, Nat.testBit_zero, decide_eq_true_iff]
  exact Nat.mod_two_ne_zero

/-- The byte of a status is decoded as that status. -/
theorem ofStatus_byte (s : Status) : Fault.ofStatus s.byte = .ok s.fault := by
  have hnumber : (s.byte >>> 1).toNat = s.fault.number := by
    have hgood := s.powerGood.toNat_le
    have hnat := s.byte_toNat
    rw [shiftRight_one_toNat]
    omega
  rw [Fault.ofStatus, hnumber, Fault.table_number]

theorem isPowerGood_byte (s : Status) : isPowerGood s.byte = s.powerGood := by
  rw [isPowerGood_eq_testBit, Status.byte_toNat, Nat.testBit_zero]
  cases s.powerGood <;> simp only [Bool.toNat_false, Bool.toNat_true] <;> grind

/-- A byte with an unknown bit is not decoded. -/
theorem ofStatus_of_hasUnknownBit {flags : UInt8} (h : HasUnknownBit flags) :
    Fault.ofStatus flags = .error (.unexpected "fault flag" (flags >>> 1)) := by
  have hpast : Fault.table.length ≤ (flags >>> 1).toNat := by
    rw [hasUnknownBit_iff] at h
    rw [shiftRight_one_toNat]
    change 16 ≤ _
    omega
  rw [Fault.ofStatus, List.getElem?_eq_none hpast]

/-- A byte that is decoded has a fault exactly if a bit above the one for power good is set. -/
theorem isFault_of_ofStatus {flags : UInt8} {fault : Fault} (h : Fault.ofStatus flags = .ok fault) :
    fault.isFault = true ↔ 2 ≤ flags.toNat := by
  rcases hasUnknownBit_or_exists_byte flags with hunknown | ⟨s, rfl⟩
  · cases (ofStatus_of_hasUnknownBit hunknown).symm.trans h
  · obtain rfl : s.fault = fault := Except.ok.inj ((ofStatus_byte s).symm.trans h)
    have hgood := s.powerGood.toNat_le
    rw [Fault.isFault_iff_number, Status.byte_toNat]
    omega

/-! ## One read -/

/-- What a byte that was asked for comes to. -/
def byteOf : Except Bus.Failure Bytes → Result UInt8
  | .error failure => .error (.bus failure)
  | .ok [] => .error (.bus (.short 1 0))
  | .ok (flags :: _) => .ok flags

theorem readByte_eq (register : UInt8) :
    readByte register =
      Program.ask (I := interface) (.transfer (.exchange [register] 1)) fun reply => .done (byteOf reply) := by
  rw [readByte, onBus, RegisterChip.readRegister_run]
  refine congrArg (Program.ask (I := interface) (.transfer (.exchange [register] 1))) (funext fun reply => ?_)
  rcases reply with failure | (_ | ⟨flags, rest⟩) <;> rfl

/-- How a read of the status goes, given what the bus brings: with which result, and which view afterwards. -/
inductive StatusRead (before : Controller) : Except Bus.Failure Bytes → Result Status → Controller → Prop
  | failed (failure : Bus.Failure) : StatusRead before (.error failure) (.error (.bus failure)) before
  | empty : StatusRead before (.ok []) (.error (.bus (.short 1 0))) before
  | unknown {flags : UInt8} (h : HasUnknownBit flags) (rest : Bytes) :
      StatusRead before (.ok (flags :: rest)) (.error (.malformed (.unexpected "fault flag" (flags >>> 1)))) before
  | decoded (s : Status) (rest : Bytes) :
      StatusRead before (.ok (s.byte :: rest)) (.ok s) { before with lastFault := s.fault }

namespace StatusRead

variable {before after : Controller} {reply : Except Bus.Failure Bytes} {result : Result Status}

/-- Whoever decodes the byte of a status gets the status. -/
theorem powerGood_of_ok {s : Status} (h : StatusRead before reply (.ok s) after) :
    (byteOf reply).map isPowerGood = .ok s.powerGood := by
  cases h with
  | decoded _ rest => exact congrArg Except.ok (isPowerGood_byte s)

/-- What was read is remembered exactly if it was decoded. -/
theorem lastFault_eq (h : StatusRead before reply result after) :
    after.lastFault = match result with
      | .ok s => s.fault
      | .error _ => before.lastFault := by
  cases h <;> rfl

end StatusRead

/-- What the controller makes of what the bus brings. -/
def Controller.decode (c : Controller) (reply : Except Bus.Failure Bytes) : Outcome Status :=
  match byteOf reply with
  | .error e => (.error e, c)
  | .ok flags =>
    match Fault.ofStatus flags with
    | .error what => (.error (.malformed what), c)
    | .ok fault => (.ok ⟨isPowerGood flags, fault⟩, { c with lastFault := fault })

theorem Controller.statusRead_decode (c : Controller) (reply : Except Bus.Failure Bytes) :
    StatusRead c reply (c.decode reply).1 (c.decode reply).2 := by
  rcases reply with failure | (_ | ⟨flags, rest⟩)
  · exact .failed failure
  · exact .empty
  · rcases hasUnknownBit_or_exists_byte flags with hunknown | ⟨s, rfl⟩
    · simp only [decode, byteOf, ofStatus_of_hasUnknownBit hunknown]
      exact .unknown hunknown rest
    · simp only [decode, byteOf, ofStatus_byte, isPowerGood_byte]
      exact .decoded s rest

theorem Controller.readStatus_eq (c : Controller) :
    c.readStatus =
      Program.ask (I := interface) (.transfer (.exchange [Register.faultFlag] 1)) fun reply => .done (c.decode reply) := by
  rw [Controller.readStatus, readByte_eq]
  refine congrArg (Program.ask (I := interface) _) (funext fun reply => ?_)
  change (match byteOf reply with | .error e => _ | .ok flags => _ : Program interface (Outcome Status)) = _
  rw [Controller.decode]
  cases byteOf reply with
  | error e => rfl
  | ok flags =>
    dsimp only
    cases Fault.ofStatus flags <;> rfl

/-! ## The operations -/

/-- What an operation that reads the status says of it. -/
def Method.tells? : Method → Option (Status → Answer)
  | .readStatus => some .status
  | .faultState => some fun s => .text s.fault.description
  | _ => none

/-- The fault flag byte was asked for. -/
def flagsRead (reply : Except Bus.Failure Bytes) : Exchange interface :=
  ⟨.transfer (.exchange [Register.faultFlag] 1), reply⟩

/-- An operation that reads the status asks for one byte and says what the controller makes of it. -/
theorem call_of_tells (c : Controller) {m : Method} {tells : Status → Answer} (h : m.tells? = some tells) :
    c.call m = Program.ask (I := interface) (.transfer (.exchange [Register.faultFlag] 1)) fun reply =>
      .done ((c.decode reply).1.map tells, (c.decode reply).2) := by
  cases m with
  | readStatus =>
    obtain rfl := Option.some.inj h
    rw [Controller.call, Controller.change, Controller.readStatus_eq]
    rfl
  | faultState =>
    obtain rfl := Option.some.inj h
    rw [Controller.call, Controller.change, Controller.describeFault, Controller.readStatus_eq]
    refine congrArg (Program.ask (I := interface) _) (funext fun reply => ?_)
    dsimp only
    generalize c.decode reply = o
    obtain ⟨result, c'⟩ := o
    cases result <;> rfl
  | _ => cases h

/-- Power good is read from the same byte, whatever its other bits are. -/
theorem call_powerGood (c : Controller) :
    c.call .powerGood = Program.ask (I := interface) (.transfer (.exchange [Register.faultFlag] 1)) fun reply =>
      .done (((byteOf reply).map isPowerGood).map .bool, c) := by
  rw [Controller.call, Controller.keep, readPowerGood, readByte_eq]
  rfl

/-! ## A session -/

/-- The fault that a call reported, by name or in words. -/
def Call.reported? (k : Call) : Option Fault :=
  match k.operation, k.result with
  | .readStatus, .ok (.status s) => some s.fault
  | .faultState, .ok (.text words) => Fault.table.find? (·.description == words)
  | _, _ => none

/-- A call that reads the status asked for the byte once, and went as such a read goes. -/
def Call.ReadAsSaid (k : Call) (tells : Status → Answer) : Prop :=
  ∃ reply result, k.history = [flagsRead reply] ∧ StatusRead k.before reply result k.after ∧ k.result = result.map tells

theorem Call.Possible.readAsSaid {k : Call} (hk : k.Possible) {tells : Status → Answer} (h : k.operation.tells? = some tells) :
    k.ReadAsSaid tells := by
  rw [Call.Possible, call_of_tells k.before h] at hk
  obtain ⟨reply, later, hhistory, hend⟩ := ends_ask.1 hk
  obtain ⟨rfl, heq⟩ := ends_done.1 hend
  obtain ⟨hresult, hafter⟩ := Prod.mk.inj heq
  refine ⟨reply, (k.before.decode reply).1, hhistory, ?_, hresult⟩
  rw [hafter]
  exact k.before.statusRead_decode reply

/-- A call that reads no status reports no fault and leaves the last one alone. -/
theorem Call.Possible.of_tells_none {k : Call} (hk : k.Possible) (h : k.operation.tells? = none) :
    k.reported? = none ∧ k.after.lastFault = k.before.lastFault := by
  have hstatus : k.operation ≠ .readStatus := by
    intro heq
    rw [heq] at h
    cases h
  have hwords : k.operation ≠ .faultState := by
    intro heq
    rw [heq] at h
    cases h
  refine ⟨?_, hk.view.2 hstatus hwords⟩
  unfold Call.reported?
  split
  · next hm _ => exact absurd hm hstatus
  · next hm _ => exact absurd hm hwords
  · rfl

/-- What a call says of a status, it reports. -/
theorem Call.reported?_eq {k : Call} {tells : Status → Answer} (h : k.operation.tells? = some tells) {result : Result Status}
    (hresult : k.result = result.map tells) :
    k.reported? = match result with
      | .ok s => some s.fault
      | .error _ => none := by
  obtain ⟨c, m, r, c', history⟩ := k
  obtain rfl : r = _ := hresult
  cases m with
  | readStatus =>
    obtain rfl := Option.some.inj h
    cases result <;> rfl
  | faultState =>
    obtain rfl := Option.some.inj h
    cases result with
    | error e => rfl
    | ok s => exact s.fault.find_description
  | _ => cases h

/-- A call remembers the fault that it reported, or the one from before. -/
theorem Call.Possible.lastFault_eq {k : Call} (hk : k.Possible) :
    k.after.lastFault = k.reported?.getD k.before.lastFault := by
  cases h : k.operation.tells? with
  | none =>
    obtain ⟨hnone, hsame⟩ := hk.of_tells_none h
    rw [hnone, hsame, Option.getD_none]
  | some tells =>
    obtain ⟨reply, result, -, hread, hresult⟩ := hk.readAsSaid h
    rw [k.reported?_eq h hresult, hread.lastFault_eq]
    cases result <;> rfl

/-- The fault that was reported last, if any was. -/
def lastReported (calls : List Call) : Option Fault :=
  (calls.filterMap Call.reported?).getLast?

theorem lastReported_append (calls : List Call) (k : Call) :
    lastReported (calls ++ [k]) = k.reported?.or (lastReported calls) := by
  unfold lastReported
  cases hk : k.reported? <;> simp [List.filterMap_append, hk]

/-- The last fault is the one that was reported last. Take any operations on a fresh controller, over anyone who answers: the
chip may change at any time, and any transfer may fail. The controller remembers the fault that the calls so far reported last,
by name or in words, and no fault if they reported none. A call that reads the status asks for one byte; if the bus fails, or the
byte has a bit above bit 4, the call fails and leaves the view as it was, and else it succeeds with the status of that byte. Asked
at the same moment, a read of power good agrees with a read of the status that succeeds, and it succeeds on every byte. -/
theorem lastFault_eq_lastReported {σ : Type} (answer : Answerer interface σ) (methods : List Method) (start : σ) :
    let s : Session σ := Course.run Controller.call answer methods {} start
    s.view.lastFault = (lastReported s.calls).getD .none ∧
      (∀ k ∈ s.calls, ∀ tells, k.operation.tells? = some tells → Call.ReadAsSaid k tells) ∧
      ∀ t : Session σ,
        (∀ status, (t.made Controller.call answer .readStatus).result = .ok (.status status) →
          (t.made Controller.call answer .powerGood).result = .ok (.bool status.powerGood)) ∧
        ∀ flags rest, (answer (.transfer (.exchange [Register.faultFlag] 1)) t.state).1 = .ok (flags :: rest) →
          (t.made Controller.call answer .powerGood).result = .ok (.bool (flags.toNat.testBit 0)) := by
  intro s
  refine ⟨?_, fun k hk tells htells => (Session.possible_run answer methods start k hk).readAsSaid htells, fun t => ?_⟩
  · let holds (s : Session σ) : Prop := s.view.lastFault = (lastReported s.calls).getD .none
    refine Course.always Controller.call answer holds rfl fun s m _ hs => ?_
    have hcall := (Session.possible_made answer s m).lastFault_eq
    change (s.made Controller.call answer m).after.lastFault =
      (lastReported (s.calls ++ [s.made Controller.call answer m])).getD .none
    rw [lastReported_append, hcall]
    cases Call.reported? (s.made Controller.call answer m) with
    | none => exact hs
    | some fault => rfl
  · let reply := (answer (.transfer (.exchange [Register.faultFlag] 1)) t.state).1
    have hgood : (t.made Controller.call answer .powerGood).result = ((byteOf reply).map isPowerGood).map .bool := by
      simp only [Course.made, call_powerGood, Program.play_ask, Program.play_done, Played.behind_result]
      rfl
    constructor
    · intro status hstatus
      have hresult : (t.made Controller.call answer .readStatus).result = (t.view.decode reply).1.map .status := by
        simp only [Course.made, call_of_tells t.view (m := .readStatus) rfl, Program.play_ask, Program.play_done,
          Played.behind_result]
        rfl
      have hread := t.view.statusRead_decode reply
      rw [hstatus] at hresult
      cases hdecoded : (t.view.decode reply).1 with
      | error e =>
        rw [hdecoded] at hresult
        cases hresult
      | ok decoded =>
        rw [hdecoded] at hresult hread
        obtain rfl : status = decoded := by
          simpa [Except.map] using hresult
        rw [hgood, hread.powerGood_of_ok]
        rfl
    · intro flags rest hflags
      rw [hgood, show reply = _ from hflags, ← isPowerGood_eq_testBit]
      rfl

/-- Brings one byte after the other from register 7, and then fails. -/
def flagScript : Answerer interface (List UInt8)
  | .transfer (.exchange [0x07] 1) => fun script =>
    match script with
    | [] => (.error (.adapter .bus), [])
    | flags :: rest => (.ok [flags], rest)
  | .transfer (.exchange _ _) => pure (.error (.adapter .bus))
  | .transfer (.read _) => pure (.ok [])
  | .transfer (.write _) => pure (.ok ())
  | .powerGood => pure (.ok true)
  | .delay _ | .log _ => pure ()

/-- A byte with bit 5 set is good for a read of power good and not for the status, and neither it nor a bus that fails makes the
controller forget the fault that it decoded before. -/
theorem lastFault_eq_lastReported_flagScript :
    let s : Session (List UInt8) := Course.run Controller.call flagScript
      [.readStatus, .faultState, .powerGood, .readStatus, .disable, .faultState] {} [0x05, 0x08, 0x25, 0x25]
    s.calls.map Called.result =
        [.ok (.status ⟨true, .uvpVn⟩), .ok (.text "UVP at VNEG rail"), .ok (.bool true),
          .error (.malformed (.unexpected "fault flag" 0x12)), .error (.bus (.adapter .bus)), .error (.bus (.adapter .bus))] ∧
      lastReported s.calls = some .uvpVneg ∧ s.view.lastFault = .uvpVneg ∧
      (s.calls.map Called.history).head? = some [⟨.transfer (.exchange [0x07] 1), .ok [0x05]⟩] ∧
      (Course.made Controller.call flagScript { view := {}, state := [0x25] } .powerGood).result = .ok (.bool true) := by
  intro s
  obtain ⟨hlast, -, hsame⟩ := lastFault_eq_lastReported flagScript
    [.readStatus, .faultState, .powerGood, .readStatus, .disable, .faultState] [0x05, 0x08, 0x25, 0x25]
  have hreported : lastReported s.calls = some .uvpVneg := by decide
  refine ⟨by rfl, hreported, ?_, by rfl, (hsame { view := {}, state := [0x25] }).2 0x25 [] rfl⟩
  rw [show s.view.lastFault = _ from hlast, hreported]
  rfl

end PenRail.Rail
