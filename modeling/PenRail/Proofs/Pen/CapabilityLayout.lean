import PenRail.Pen.Event
import PenRail.Proofs.Words

/-!
# What the limits say

The reply to the feature query has the limits of a digitizer, each at its place, with gaps between them. The limits become
the ranges that a virtual device is declared with. `limits_of_replies` says what is lost on the way: of the reply the bytes in
the gaps and the high byte of the firmware number, of the limits those that no axis has. Nothing overflows.
-/

namespace PenRail.Pen

/-! ## Reading -/

/-- Too few bytes are the only thing that can be wrong with a reply. -/
theorem decode_capabilities_eq_error_iff {bytes : Bytes} {e : Malformed} :
    Capabilities.decode bytes = .error e ↔ bytes.length < 21 ∧ e = .short 21 bytes.length := by
  unfold Capabilities.decode
  split
  · next h => exact ⟨fun he => ⟨h, (Except.error.inj he).symm⟩, fun he => he.2 ▸ rfl⟩
  · next h => exact ⟨nofun, fun he => absurd he.1 h⟩

/-- The fields of a reply. Of the firmware number only the low byte is one. -/
theorem decode_capabilities_of_le {bytes : Bytes} (h : 21 ≤ bytes.length) :
    Capabilities.decode bytes = .ok {
      xMax := wordAt bytes 3
      yMax := wordAt bytes 5
      pressureMax := wordAt bytes 11
      firmware := byteAt bytes 13
      distanceMax := byteAt bytes 15
      distancePhysicalMax := byteAt bytes 16
      tiltXMax := wordAt bytes 17
      tiltYMax := wordAt bytes 19 } := by
  rw [← toUInt8_word (byteAt bytes 13) (byteAt bytes 14)]
  simp (disch := omega) only [wordAt, byteAt_of_lt]
  exact dif_neg (Nat.not_lt.2 h)

/-- Two replies say the same exactly if they agree on the fields. -/
theorem decode_capabilities_eq_iff {bytes bytes' : Bytes} (h : 21 ≤ bytes.length) (h' : 21 ≤ bytes'.length) :
    Capabilities.decode bytes = Capabilities.decode bytes' ↔
      SameBytes 3 6 bytes bytes' ∧ SameBytes 11 13 bytes bytes' ∧ SameBytes 15 20 bytes bytes' := by
  have hpoint : SameBytes 3 6 bytes bytes' ↔ wordAt bytes 3 = wordAt bytes' 3 ∧ wordAt bytes 5 = wordAt bytes' 5 := by
    simp (disch := omega) only [sameBytes_succ, sameBytes_of_lt, wordAt, word_inj, true_and, and_assoc, Nat.reduceAdd]
  have hpressure : SameBytes 11 13 bytes bytes' ↔
      wordAt bytes 11 = wordAt bytes' 11 ∧ byteAt bytes 13 = byteAt bytes' 13 := by
    simp (disch := omega) only [sameBytes_succ, sameBytes_of_lt, wordAt, word_inj, true_and, and_assoc, Nat.reduceAdd]
  have hrest : SameBytes 15 20 bytes bytes' ↔
      byteAt bytes 15 = byteAt bytes' 15 ∧ byteAt bytes 16 = byteAt bytes' 16 ∧ wordAt bytes 17 = wordAt bytes' 17 ∧
        wordAt bytes 19 = wordAt bytes' 19 := by
    simp (disch := omega) only [sameBytes_succ, sameBytes_of_lt, wordAt, word_inj, true_and, and_assoc, Nat.reduceAdd]
  rw [decode_capabilities_of_le h, decode_capabilities_of_le h', Except.ok.injEq, Capabilities.mk.injEq, hpoint, hpressure,
    hrest]
  constructor
  · rintro ⟨hx, hy, hpressure, hdistance, hphysical, htiltX, htiltY, hfirmware⟩
    exact ⟨⟨hx, hy⟩, ⟨hpressure, hfirmware⟩, hdistance, hphysical, htiltX, htiltY⟩
  · rintro ⟨⟨hx, hy⟩, ⟨hpressure, hfirmware⟩, hdistance, hphysical, htiltX, htiltY⟩
    exact ⟨hx, hy, hpressure, hdistance, hphysical, htiltX, htiltY, hfirmware⟩

/-! ## Writing -/

/-- The buffer with limits written into it, each at its place. All else in it stays. -/
def Capabilities.writeInto (caps : Capabilities) (bytes : Bytes) : Bytes :=
  putNumber 3 caps.xMax.toNat bytes
    |> putNumber 5 caps.yMax.toNat
    |> putNumber 11 caps.pressureMax.toNat
    |> (List.set · 13 caps.firmware)
    |> (List.set · 15 caps.distanceMax)
    |> (List.set · 16 caps.distancePhysicalMax)
    |> putNumber 17 caps.tiltXMax.toNat
    |> putNumber 19 caps.tiltYMax.toNat

/-- A place in a reply that no limit is written to. -/
def IsGap (i : Nat) : Prop :=
  i < 3 ∨ (7 ≤ i ∧ i ≤ 10) ∨ i = 14 ∨ 21 ≤ i

section
variable (caps : Capabilities) {bytes : Bytes}

@[simp] theorem Capabilities.length_writeInto : (caps.writeInto bytes).length = bytes.length := by
  simp [writeInto]

theorem Capabilities.getElem?_writeInto {i : Nat} (hi : IsGap i) : (caps.writeInto bytes)[i]? = bytes[i]? := by
  unfold IsGap at hi
  simp (disch := omega) only [writeInto, putNumber, List.getElem?_set_ne]

/-- What is written can be read back, whatever else is in the buffer. -/
theorem decode_capabilities_writeInto (h : 21 ≤ bytes.length) : Capabilities.decode (caps.writeInto bytes) = .ok caps := by
  have hlength : 21 ≤ (caps.writeInto bytes).length := by rwa [caps.length_writeInto]
  rw [decode_capabilities_of_le hlength]
  simp (disch := (try simp only [length_putNumber, List.length_set]); omega) only [Capabilities.writeInto,
    wordAt_putNumber_self, wordAt_putNumber_of_apart, wordAt_set_of_apart, byteAt_putNumber_of_ne, byteAt_set_self,
    byteAt_set_of_ne, word_bytes]

end

/-! ## Ranges -/

namespace Axis

/-- The axes, in the order in which they are declared. -/
def all : List Axis :=
  [.x, .y, .pressure, .distance, .tiltX, .tiltY]

/-- Tilt goes to either side of zero. -/
def isTilt : Axis → Bool
  | .tiltX | .tiltY => true
  | .x | .y | .pressure | .distance => false

end Axis

/-- How far an axis goes. -/
def Capabilities.limit (caps : Capabilities) : Axis → Nat
  | .x => caps.xMax.toNat
  | .y => caps.yMax.toNat
  | .pressure => caps.pressureMax.toNat
  | .distance => caps.distanceMax.toNat
  | .tiltX => caps.tiltXMax.toNat
  | .tiltY => caps.tiltYMax.toNat

/-- The least and the greatest number that an axis can report, by its limit. -/
def Capabilities.bounds (caps : Capabilities) (a : Axis) : Int × Int :=
  (if a.isTilt then -caps.limit a else 0, caps.limit a)

/-- The least and the greatest number of a range. -/
def AxisRange.bounds (r : AxisRange) : Int × Int :=
  (r.min.toInt, r.max.toInt)

theorem toInt_ofNat_word (w : UInt16) : (Int32.ofNat w.toNat).toInt = w.toNat :=
  Int32.toInt_ofNat_of_lt (Nat.lt_trans w.toNat_lt (by decide))

theorem toInt_ofNat_byte (b : UInt8) : (Int32.ofNat b.toNat).toInt = b.toNat :=
  Int32.toInt_ofNat_of_lt (Nat.lt_trans b.toNat_lt (by decide))

theorem toInt_neg_ofNat_word (w : UInt16) : (-Int32.ofNat w.toNat).toInt = -w.toNat := by
  have hw := w.toNat_lt
  rw [Int32.toInt_neg, toInt_ofNat_word]
  exact Int.bmod_eq_of_le (by omega) (by omega)

section
variable (caps caps' : Capabilities)

/-- Nothing overflows: each axis is declared with the bounds that its limit gives. -/
theorem bounds_axisRanges :
    caps.axisRanges.map (fun r => (r.axis, r.bounds)) = Axis.all.map fun a => (a, caps.bounds a) := by
  simp only [Capabilities.axisRanges, Axis.all, List.map_cons, List.map_nil, AxisRange.bounds, toInt_ofNat_word,
    toInt_neg_ofNat_word, toInt_ofNat_byte, Int32.toInt_zero]
  rfl

variable {caps}

theorem bounds_of_mem_axisRanges {r : AxisRange} (hr : r ∈ caps.axisRanges) : r.bounds = caps.bounds r.axis := by
  have hmem := List.mem_map_of_mem (f := fun r => (r.axis, r.bounds)) hr
  rw [bounds_axisRanges] at hmem
  obtain ⟨a, -, ha⟩ := List.mem_map.1 hmem
  obtain ⟨rfl, hbounds⟩ := Prod.mk.inj ha
  exact hbounds.symm

/-- Zero is in every range, and tilt goes as far to either side. -/
theorem around_zero {r : AxisRange} (hr : r ∈ caps.axisRanges) :
    r.min ≤ 0 ∧ 0 ≤ r.max ∧ (r.axis.isTilt = true → r.min.toInt = -r.max.toInt) := by
  obtain ⟨hmin, hmax⟩ := Prod.mk.inj (bounds_of_mem_axisRanges hr)
  rw [Int32.le_iff_toInt_le, Int32.le_iff_toInt_le, Int32.toInt_zero, hmin, hmax]
  refine ⟨?_, by omega, fun htilt => by rw [if_pos htilt]⟩
  split <;> omega

/-- The limits that an axis has are all that the ranges tell. -/
theorem axisRanges_eq_iff :
    caps.axisRanges = caps'.axisRanges ↔
      caps.xMax = caps'.xMax ∧ caps.yMax = caps'.yMax ∧ caps.pressureMax = caps'.pressureMax ∧
        caps.distanceMax = caps'.distanceMax ∧ caps.tiltXMax = caps'.tiltXMax ∧ caps.tiltYMax = caps'.tiltYMax := by
  constructor
  · intro h
    have hbounds := congrArg (List.map fun r : AxisRange => (r.axis, r.bounds)) h
    rw [bounds_axisRanges, bounds_axisRanges] at hbounds
    simpa [Axis.all, Capabilities.bounds, Capabilities.limit, Axis.isTilt, Int.ofNat_inj, UInt16.toNat_inj,
      UInt8.toNat_inj] using hbounds
  · rintro ⟨hx, hy, hpressure, hdistance, htiltX, htiltY⟩
    unfold Capabilities.axisRanges
    rw [hx, hy, hpressure, hdistance, htiltX, htiltY]

end

/-- A reply of fewer than 21 bytes is malformed, and that is the only thing that can be wrong with it. Two longer ones give the
same limits exactly if they agree on the bytes that have a field, and all limits can be given: written into any buffer that is
long enough they are read back, while the bytes in the gaps and behind stay what they were. Whatever the limits are, each
axis is declared with the bounds that its limit gives in exact numbers, zero is between them, and tilt goes as far to
either side. The ranges tell exactly the six limits that an axis has. -/
theorem limits_of_replies :
    (∀ bytes e, Capabilities.decode bytes = .error e ↔ bytes.length < 21 ∧ e = .short 21 bytes.length) ∧
      (∀ bytes bytes' : Bytes, 21 ≤ bytes.length → 21 ≤ bytes'.length →
        (Capabilities.decode bytes = Capabilities.decode bytes' ↔
          SameBytes 3 6 bytes bytes' ∧ SameBytes 11 13 bytes bytes' ∧ SameBytes 15 20 bytes bytes')) ∧
      (∀ (caps : Capabilities) (bytes : Bytes), 21 ≤ bytes.length →
        Capabilities.decode (caps.writeInto bytes) = .ok caps ∧ (caps.writeInto bytes).length = bytes.length ∧
          ∀ i, IsGap i → (caps.writeInto bytes)[i]? = bytes[i]?) ∧
      ∀ caps : Capabilities,
        caps.axisRanges.map (fun r => (r.axis, r.bounds)) = Axis.all.map (fun a => (a, caps.bounds a)) ∧
          (∀ r ∈ caps.axisRanges, r.min ≤ 0 ∧ 0 ≤ r.max ∧ (r.axis.isTilt = true → r.min.toInt = -r.max.toInt)) ∧
          ∀ caps' : Capabilities, caps.axisRanges = caps'.axisRanges ↔
            caps.xMax = caps'.xMax ∧ caps.yMax = caps'.yMax ∧ caps.pressureMax = caps'.pressureMax ∧
              caps.distanceMax = caps'.distanceMax ∧ caps.tiltXMax = caps'.tiltXMax ∧ caps.tiltYMax = caps'.tiltYMax := by
  refine ⟨fun bytes e => decode_capabilities_eq_error_iff, fun bytes bytes' h h' => decode_capabilities_eq_iff h h', ?_, ?_⟩
  · intro caps bytes h
    exact ⟨decode_capabilities_writeInto caps h, caps.length_writeInto, fun i hi => caps.getElem?_writeInto hi⟩
  · intro caps
    exact ⟨bounds_axisRanges caps, fun r hr => around_zero hr, fun caps' => axisRanges_eq_iff caps'⟩

/-- A reply as one digitizer sent it. -/
def capturedReply : Bytes :=
  [0x13, 0x00, 0x03, 0xe7, 0x51, 0x6d, 0x3d, 0x00, 0x00, 0x00, 0x00, 0xff, 0x0f, 0x34, 0x12, 0xff, 0x28, 0x00, 0x19, 0x00,
    0x19]

/-- Its limits. -/
def capturedLimits : Capabilities where
  xMax := 20967
  yMax := 15725
  pressureMax := 4095
  distanceMax := 255
  distancePhysicalMax := 40
  tiltXMax := 6400
  tiltYMax := 6400
  firmware := 0x34

/-- The reply has them, though all it has besides differs from the buffer they are written into here. -/
theorem limits_of_replies_captured :
    Capabilities.decode capturedReply = .ok capturedLimits ∧
      capturedReply[14]? ≠ (capturedLimits.writeInto (List.replicate 30 0xff))[14]? ∧
      capturedLimits.axisRanges.map (fun r => r.bounds) =
        [(0, 20967), (0, 15725), (0, 4095), (0, 255), (-6400, 6400), (-6400, 6400)] := by
  obtain ⟨-, hsame, hwrite, -⟩ := limits_of_replies
  have hwritten := (hwrite capturedLimits (List.replicate 30 0xff) (by decide)).1
  refine ⟨?_, by decide, by decide⟩
  rw [← hwritten]
  exact (hsame capturedReply _ (by decide) (by decide)).2 ⟨by decide, by decide, by decide⟩

end PenRail.Pen
