import PenRail.Proofs.Words
import Mathlib.Data.Nat.Bitwise

/-!
# What a pen report says

A report says what a sample has, each field at its place, and nothing else: bits and bytes between the fields do not matter,
and of the two bits about the tool the second one only where the first is clear. `samples_of_reports` says so, with the writing
of a sample into any buffer (`Sample.writeInto`) as the other direction.
-/

namespace PenRail.Pen

/-! ## Bits of the status -/

/-- A byte with bit `i` set, or with none. -/
def bit (i : Nat) (on : Bool) : UInt8 :=
  if on then .ofNat (2 ^ i) else 0

section
variable {i : Nat} (hi : i < 8)

include hi

theorem bit_true_toNat : (bit i true).toNat = 2 ^ i :=
  UInt8.toNat_ofNat_of_lt' (Nat.pow_lt_pow_right (by decide) hi)

theorem testBit_bit (on : Bool) (j : Nat) : (bit i on).toNat.testBit j = (on && decide (i = j)) := by
  cases on with
  | false => simp [bit]
  | true => rw [bit_true_toNat hi, Nat.testBit_two_pow, Bool.true_and]

theorem anyBit_bit (status : UInt8) : anyBit status (bit i true) = status.toNat.testBit i := by
  have hand : (status &&& bit i true).toNat = (status.toNat.testBit i).toNat * 2 ^ i := by
    rw [UInt8.toNat_and, bit_true_toNat hi, Nat.and_two_pow]
  rw [Bool.eq_iff_iff, anyBit, bne_iff_ne, ne_eq, ← UInt8.toNat_inj, hand]
  cases status.toNat.testBit i <;> simp

end

/-- A bit of either mask is a bit of one of them. -/
theorem anyBit_or (status mask mask' : UInt8) :
    anyBit status (mask ||| mask') = (anyBit status mask || anyBit status mask') := by
  have hand : status &&& (mask ||| mask') = (status &&& mask) ||| (status &&& mask') := by
    apply UInt8.toNat_inj.1
    simp only [UInt8.toNat_and, UInt8.toNat_or, Nat.and_or_distrib_left]
  rw [Bool.eq_iff_iff, Bool.or_eq_true, anyBit, anyBit, anyBit, hand]
  simp only [bne_iff_ne, ne_eq, UInt8.or_eq_zero_iff]
  exact Classical.not_and_iff_not_or_not

/-! ## Reading -/

/-- Too few bytes are the only thing that can be wrong with a report. -/
theorem decode_sample_eq_error_iff {bytes : Bytes} {e : Malformed} :
    Sample.decode bytes = .error e ↔ bytes.length < 15 ∧ e = .short 15 bytes.length := by
  unfold Sample.decode
  split
  · next h => exact ⟨fun he => ⟨h, (Except.error.inj he).symm⟩, fun he => he.2 ▸ rfl⟩
  · next h => exact ⟨nofun, fun he => absurd he.1 h⟩

/-- Whether bit `i` of a report's status is set. -/
def statusBit (bytes : Bytes) (i : Nat) : Bool :=
  (byteAt bytes 3).toNat.testBit i

/-- The fields of a report, its status bit by bit. -/
theorem decode_sample_of_le {bytes : Bytes} (h : 15 ≤ bytes.length) :
    Sample.decode bytes = .ok {
      touch := statusBit bytes 0
      eraser := statusBit bytes 2
      button1 := statusBit bytes 1
      button2 := statusBit bytes 4
      x := wordAt bytes 4
      y := wordAt bytes 6
      pressure := wordAt bytes 8
      distance := byteAt bytes 10
      tiltX := (wordAt bytes 11).toInt16
      tiltY := (wordAt bytes 13).toInt16
      inProximity := statusBit bytes 5
      tool := if statusBit bytes 2 || statusBit bytes 3 then .eraser else .pen } := by
  simp (disch := omega) only [statusBit, wordAt, byteAt_of_lt, ← anyBit_bit, ← anyBit_or]
  exact dif_neg (Nat.not_lt.2 h)

/-- Which tool the two bits about it say. -/
theorem tool_eq_iff {eraser other eraser' other' : Bool} (h : eraser = eraser') :
    (if eraser || other then Tool.eraser else .pen) = (if eraser' || other' then .eraser else .pen) ↔
      (eraser = false → other = other') := by
  subst h
  cases eraser <;> cases other <;> cases other' <;> simp

section
variable {bytes bytes' : Bytes} (h : 15 ≤ bytes.length) (h' : 15 ≤ bytes'.length)

include h h'

/-- Behind the status there is no byte that does not matter. -/
theorem sameBytes_report :
    SameBytes 4 14 bytes bytes' ↔
      wordAt bytes 4 = wordAt bytes' 4 ∧ wordAt bytes 6 = wordAt bytes' 6 ∧ wordAt bytes 8 = wordAt bytes' 8 ∧
        byteAt bytes 10 = byteAt bytes' 10 ∧ (wordAt bytes 11).toInt16 = (wordAt bytes' 11).toInt16 ∧
        (wordAt bytes 13).toInt16 = (wordAt bytes' 13).toInt16 := by
  simp (disch := omega) only [sameBytes_succ, sameBytes_of_lt, wordAt, word_inj, toInt16_inj, true_and, and_assoc,
    Nat.reduceAdd]

/-- Two reports say the same exactly if they agree on the fields. -/
theorem decode_sample_eq_iff :
    Sample.decode bytes = Sample.decode bytes' ↔
      SameBytes 4 14 bytes bytes' ∧ (∀ i ∈ [0, 1, 2, 4, 5], statusBit bytes i = statusBit bytes' i) ∧
        (statusBit bytes 2 = false → statusBit bytes 3 = statusBit bytes' 3) := by
  rw [decode_sample_of_le h, decode_sample_of_le h', Except.ok.injEq, Sample.mk.injEq, sameBytes_report h h']
  simp only [List.forall_mem_cons]
  constructor
  · rintro ⟨htouch, heraser, hbutton1, hbutton2, hx, hy, hpressure, hdistance, htiltX, htiltY, hnear, htool⟩
    refine ⟨⟨hx, hy, hpressure, hdistance, htiltX, htiltY⟩, ?_, (tool_eq_iff heraser).1 htool⟩
    exact ⟨htouch, hbutton1, heraser, hbutton2, hnear, by simp⟩
  · rintro ⟨⟨hx, hy, hpressure, hdistance, htiltX, htiltY⟩, ⟨htouch, hbutton1, heraser, hbutton2, hnear, -⟩, htool⟩
    exact ⟨htouch, heraser, hbutton1, hbutton2, hx, hy, hpressure, hdistance, htiltX, htiltY, hnear,
      (tool_eq_iff heraser).2 htool⟩

end

/-! ## Writing -/

/-- The status byte of a sample. Bits that say nothing are those of `spare`: the two highest, and next to the eraser switch
the other bit about the tool. -/
def Sample.status (s : Sample) (spare : UInt8) : UInt8 :=
  bit 0 s.touch ||| bit 1 s.button1 ||| bit 2 s.eraser |||
    bit 3 (if s.eraser then spare.toNat.testBit 3 else s.tool = .eraser) |||
    bit 4 s.button2 ||| bit 5 s.inProximity ||| bit 6 (spare.toNat.testBit 6) ||| bit 7 (spare.toNat.testBit 7)

/-- The buffer with a sample written into it, each field at its place. All else in it stays. -/
def Sample.writeInto (s : Sample) (bytes : Bytes) : Bytes :=
  bytes.set 3 (s.status (byteAt bytes 3))
    |> putNumber 4 s.x.toNat
    |> putNumber 6 s.y.toNat
    |> putNumber 8 s.pressure.toNat
    |> (List.set · 10 s.distance)
    |> putNumber 11 s.tiltX.toInt
    |> putNumber 13 s.tiltY.toInt

section
variable (s : Sample) {bytes : Bytes}

@[simp] theorem Sample.length_writeInto : (s.writeInto bytes).length = bytes.length := by
  simp [writeInto]

theorem Sample.getElem?_writeInto {i : Nat} (hi : i < 3 ∨ 15 ≤ i) : (s.writeInto bytes)[i]? = bytes[i]? := by
  simp (disch := omega) only [writeInto, putNumber, List.getElem?_set_ne]

theorem Sample.byteAt_writeInto (h : 3 < bytes.length) : byteAt (s.writeInto bytes) 3 = s.status (byteAt bytes 3) := by
  simp (disch := omega) only [writeInto, byteAt_putNumber_of_ne, byteAt_set_of_ne, byteAt_set_self]

theorem Sample.statusBit_writeInto (h : 3 < bytes.length) :
    let bits := statusBit (s.writeInto bytes)
    bits 0 = s.touch ∧ bits 1 = s.button1 ∧ bits 2 = s.eraser ∧
      bits 3 = (if s.eraser then statusBit bytes 3 else s.tool = .eraser) ∧ bits 4 = s.button2 ∧
      bits 5 = s.inProximity ∧ bits 6 = statusBit bytes 6 ∧ bits 7 = statusBit bytes 7 := by
  simp (disch := decide) [statusBit, s.byteAt_writeInto h, status, UInt8.toNat_or, Nat.testBit_or, testBit_bit,
    -Nat.testBit_zero]

/-- The two bits about the tool say what it is, unless the eraser switch is set and the tool a pen. -/
theorem Sample.tool_of_bits (hs : s.eraser = true → s.tool = .eraser) (other : Bool) :
    (if s.eraser || if s.eraser then other else s.tool = .eraser then Tool.eraser else .pen) = s.tool := by
  cases heraser : s.eraser with
  | true => simp [hs heraser]
  | false => cases htool : s.tool <;> simp

/-- What is written can be read back, whatever else is in the buffer. -/
theorem decode_writeInto (hs : s.eraser = true → s.tool = .eraser) (h : 15 ≤ bytes.length) :
    Sample.decode (s.writeInto bytes) = .ok s := by
  have hlength : 15 ≤ (s.writeInto bytes).length := by rwa [s.length_writeInto]
  obtain ⟨htouch, hbutton1, heraser, hother, hbutton2, hnear, -⟩ := s.statusBit_writeInto (Nat.lt_of_lt_of_le (by decide) h)
  rw [decode_sample_of_le hlength, htouch, hbutton1, heraser, hother, hbutton2, hnear, s.tool_of_bits hs]
  simp (disch := (try simp only [length_putNumber, List.length_set]); omega) only [Sample.writeInto, wordAt_putNumber_self,
    wordAt_putNumber_of_apart, wordAt_set_of_apart, byteAt_putNumber_of_ne, byteAt_set_self, word_bytes, toInt16_word_bytes]

end

/-- A report of fewer than 15 bytes says nothing, and that is the only thing that can be wrong with it. Two longer ones say the
same exactly if they agree on the bytes behind the status, on the five status bits that have a field, and on the other bit
about the tool where the eraser switch is not set. And every sample whose tool is an eraser if its eraser switch is set can be
said: written into any buffer that is long enough it is read back, while the three bytes in front of the status, its two
highest bits and all bytes behind the fields stay what they were. -/
theorem samples_of_reports :
    (∀ bytes e, Sample.decode bytes = .error e ↔ bytes.length < 15 ∧ e = .short 15 bytes.length) ∧
      (∀ bytes bytes' : Bytes, 15 ≤ bytes.length → 15 ≤ bytes'.length →
        (Sample.decode bytes = Sample.decode bytes' ↔
          SameBytes 4 14 bytes bytes' ∧ (∀ i ∈ [0, 1, 2, 4, 5], statusBit bytes i = statusBit bytes' i) ∧
            (statusBit bytes 2 = false → statusBit bytes 3 = statusBit bytes' 3))) ∧
      ∀ (s : Sample) (bytes : Bytes), (s.eraser = true → s.tool = .eraser) → 15 ≤ bytes.length →
        Sample.decode (s.writeInto bytes) = .ok s ∧ (s.writeInto bytes).length = bytes.length ∧
          (∀ i, i < 3 ∨ 15 ≤ i → (s.writeInto bytes)[i]? = bytes[i]?) ∧
          ∀ i ∈ [6, 7], statusBit (s.writeInto bytes) i = statusBit bytes i := by
  refine ⟨fun bytes e => decode_sample_eq_error_iff, fun bytes bytes' h h' => decode_sample_eq_iff h h', ?_⟩
  intro s bytes hs h
  refine ⟨decode_writeInto s hs h, s.length_writeInto, fun i hi => s.getElem?_writeInto hi, ?_⟩
  obtain ⟨-, -, -, -, -, -, hsix, hseven⟩ := s.statusBit_writeInto (Nat.lt_of_lt_of_le (by decide) h)
  simp only [List.forall_mem_cons]
  exact ⟨hsix, hseven, by simp⟩

/-- A stylus that leans over to the left, turned round. -/
def leaning : Sample :=
  { eraser := true, x := 20967, y := 12, distance := 240, tiltX := -1200, tiltY := 900, inProximity := true, tool := .eraser }

/-- It is read back from a buffer full of ones, and the same from one of zeros, though the other bit about the tool is set in
the first and clear in the second. -/
theorem samples_of_reports_leaning :
    let ones := leaning.writeInto (List.replicate 22 0xff)
    let zeros := leaning.writeInto (List.replicate 15 0x00)
    Sample.decode ones = .ok leaning ∧ Sample.decode ones = Sample.decode zeros ∧
      statusBit ones 3 = true ∧ statusBit zeros 3 = false := by
  intro ones zeros
  obtain ⟨-, hsame, hwrite⟩ := samples_of_reports
  refine ⟨(hwrite leaning _ (fun _ => rfl) (by decide)).1, ?_, by decide, by decide⟩
  exact (hsame ones zeros (by decide) (by decide)).2 ⟨by decide, by decide, by decide⟩

end PenRail.Pen
