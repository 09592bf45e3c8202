import PenRail.Pen.Report

/-!
# Two bytes as a number

Two bytes stand for a number, low byte first: from zero up, or in two's complement to either side of zero. `word_toNat` and
`toInt_word` say which number, `word_bytes` and `toInt16_word_bytes` that the bytes of a number stand for it again.

Payloads are such numbers at fixed places. `wordAt` reads one and `putNumber` writes one; `SameBytes` compares two payloads
over a stretch of places.
-/

namespace PenRail.Pen

/-- The number that two bytes stand for, low byte first. -/
def unsigned (low high : UInt8) : Int :=
  low.toNat + 256 * high.toNat

/-- The number that two bytes stand for in two's complement. -/
def signed (low high : UInt8) : Int :=
  if high.toNat < 128 then unsigned low high else unsigned low high - 65536

/-- The byte of a number that comes first. -/
def lowByte (n : Int) : UInt8 :=
  .ofInt n

/-- The byte of a number that comes second. Below zero it is that of the two's complement. -/
def highByte (n : Int) : UInt8 :=
  .ofInt (n / 256)

/-! ## From bytes to numbers -/

theorem word_toNat (low high : UInt8) : (word low high).toNat = low.toNat + 256 * high.toNat := by
  have hlow := low.toNat_lt
  have hhigh := high.toNat_lt
  have hshift : (high.toUInt16 <<< 8).toNat = high.toNat <<< 8 := by
    rw [UInt16.toNat_shiftLeft, UInt8.toNat_toUInt16]
    exact Nat.mod_eq_of_lt (by rw [show (8 : UInt16).toNat % 16 = 8 from rfl, Nat.shiftLeft_eq]; omega)
  rw [word, UInt16.toNat_or, hshift, UInt8.toNat_toUInt16, Nat.or_comm, ← Nat.shiftLeft_add_eq_or_of_lt hlow,
    Nat.shiftLeft_eq]
  omega

theorem unsigned_nonneg (low high : UInt8) : 0 ≤ unsigned low high := by
  unfold unsigned
  omega

theorem cast_word_toNat (low high : UInt8) : ((word low high).toNat : Int) = unsigned low high := by
  rw [word_toNat, unsigned, Int.natCast_add, Int.natCast_mul]
  rfl

/-- A word has its two bytes and no others. -/
theorem word_inj {low high low' high' : UInt8} : word low high = word low' high' ↔ low = low' ∧ high = high' := by
  constructor
  · intro h
    have hnat := congrArg UInt16.toNat h
    rw [word_toNat, word_toNat] at hnat
    have hlow := low.toNat_lt
    have hlow' := low'.toNat_lt
    exact ⟨UInt8.toNat_inj.1 (by omega), UInt8.toNat_inj.1 (by omega)⟩
  · rintro ⟨rfl, rfl⟩
    rfl

/-- Narrowed to a byte, a word is its low one. -/
theorem toUInt8_word (low high : UInt8) : (word low high).toUInt8 = low := by
  have hlow := low.toNat_lt
  apply UInt8.toNat_inj.1
  rw [UInt16.toNat_toUInt8, word_toNat]
  omega

theorem toInt16_inj {w w' : UInt16} : w.toInt16 = w'.toInt16 ↔ w = w' := by
  constructor
  · intro h
    exact congrArg Int16.toUInt16 h
  · rintro rfl
    rfl

theorem toInt_toInt16 (w : UInt16) : w.toInt16.toInt = if w.toNat < 32768 then (w.toNat : Int) else w.toNat - 65536 := by
  change w.toBitVec.toInt = _
  rw [BitVec.toInt_eq_toNat_cond, UInt16.toNat_toBitVec]
  split <;> split <;> omega

/-- Read as a signed number, a word is the two's complement of its bytes. -/
theorem toInt_word (low high : UInt8) : (word low high).toInt16.toInt = signed low high := by
  have hlow := low.toNat_lt
  rw [toInt_toInt16, word_toNat, signed, unsigned]
  split <;> split <;> omega

/-! ## From numbers to bytes -/

theorem lowByte_toNat (n : Int) : ((lowByte n).toNat : Int) = n % 256 := by
  rw [lowByte, UInt8.ofInt, UInt8.toNat_ofNat']
  omega

theorem highByte_toNat (n : Int) : ((highByte n).toNat : Int) = n / 256 % 256 := by
  rw [highByte, UInt8.ofInt, UInt8.toNat_ofNat']
  omega

/-- The two bytes of a number keep sixteen of its bits. -/
theorem word_bytes_toNat (n : Int) : ((word (lowByte n) (highByte n)).toNat : Int) = n % 65536 := by
  have hlow := lowByte_toNat n
  have hhigh := highByte_toNat n
  rw [word_toNat]
  omega

theorem word_bytes (w : UInt16) : word (lowByte w.toNat) (highByte w.toNat) = w := by
  have hbytes := word_bytes_toNat w.toNat
  have hw := w.toNat_lt
  exact UInt16.toNat_inj.1 (by omega)

theorem toInt16_word_bytes (t : Int16) : (word (lowByte t.toInt) (highByte t.toInt)).toInt16 = t := by
  have hbytes := word_bytes_toNat t.toInt
  have hmin := t.le_toInt
  have hmax := t.toInt_lt
  apply Int16.toInt_inj.1
  rw [toInt_toInt16]
  split <;> omega

/-! ## Numbers in a payload -/

/-- The byte at a place, zero past the end. -/
def byteAt (bytes : Bytes) (i : Nat) : UInt8 :=
  bytes[i]?.getD 0

/-- The word that begins at a place. -/
def wordAt (bytes : Bytes) (i : Nat) : UInt16 :=
  word (byteAt bytes i) (byteAt bytes (i + 1))

/-- The payload with a number written at a place, low byte first. -/
def putNumber (place : Nat) (n : Int) (bytes : Bytes) : Bytes :=
  (bytes.set place (lowByte n)).set (place + 1) (highByte n)

section
variable {bytes : Bytes} {i j place : Nat} {b : UInt8} {n : Int}

theorem byteAt_of_lt (h : i < bytes.length) : byteAt bytes i = bytes[i] := by
  rw [byteAt, List.getElem?_eq_getElem h, Option.getD_some]

theorem byteAt_set_self (h : i < bytes.length) : byteAt (bytes.set i b) i = b := by
  rw [byteAt, List.getElem?_set_self h, Option.getD_some]

theorem byteAt_set_of_ne (h : i ≠ j) : byteAt (bytes.set i b) j = byteAt bytes j := by
  rw [byteAt, List.getElem?_set_ne h, byteAt]

@[simp] theorem length_putNumber : (putNumber place n bytes).length = bytes.length := by
  rw [putNumber, List.length_set, List.length_set]

theorem byteAt_putNumber_of_ne (h : place ≠ j) (hnext : place + 1 ≠ j) :
    byteAt (putNumber place n bytes) j = byteAt bytes j := by
  rw [putNumber, byteAt_set_of_ne hnext, byteAt_set_of_ne h]

/-- What is written can be read back. -/
theorem wordAt_putNumber_self (h : place + 1 < bytes.length) :
    wordAt (putNumber place n bytes) place = word (lowByte n) (highByte n) := by
  have hlow : byteAt (putNumber place n bytes) place = lowByte n := by
    rw [putNumber, byteAt_set_of_ne (by omega), byteAt_set_self (by omega)]
  have hhigh : byteAt (putNumber place n bytes) (place + 1) = highByte n :=
    byteAt_set_self (by rwa [List.length_set])
  rw [wordAt, hlow, hhigh]

/-- A word apart from what is written is as before. -/
theorem wordAt_putNumber_of_apart (h : place + 1 < j ∨ j + 1 < place) :
    wordAt (putNumber place n bytes) j = wordAt bytes j := by
  rw [wordAt, byteAt_putNumber_of_ne (by omega) (by omega), byteAt_putNumber_of_ne (by omega) (by omega), wordAt]

theorem wordAt_set_of_apart (h : i < j ∨ j + 1 < i) : wordAt (bytes.set i b) j = wordAt bytes j := by
  rw [wordAt, byteAt_set_of_ne (by omega), byteAt_set_of_ne (by omega), wordAt]

end

/-- The two payloads hold the same bytes from place `first` to place `last`. -/
def SameBytes (first last : Nat) (bytes bytes' : Bytes) : Prop :=
  ∀ i, first ≤ i → i ≤ last → bytes[i]? = bytes'[i]?

section
variable {first last : Nat} {bytes bytes' : Bytes}

instance : Decidable (SameBytes first last bytes bytes') :=
  decidable_of_iff (∀ i < last + 1, first ≤ i → bytes[i]? = bytes'[i]?)
    ⟨fun h i hfirst hlast => h i (Nat.lt_succ_of_le hlast) hfirst, fun h i hlast hfirst => h i hfirst (Nat.le_of_lt_succ hlast)⟩

theorem sameBytes_of_lt (h : last < first) : SameBytes first last bytes bytes' := by
  intro i hfirst hlast
  omega

/-- A stretch is the same if it is but for its last byte, and that is. -/
theorem sameBytes_succ (h : first ≤ last + 1) (hbytes : last + 1 < bytes.length) (hbytes' : last + 1 < bytes'.length) :
    SameBytes first (last + 1) bytes bytes' ↔
      SameBytes first last bytes bytes' ∧ byteAt bytes (last + 1) = byteAt bytes' (last + 1) := by
  have hlast : bytes[last + 1]? = bytes'[last + 1]? ↔ byteAt bytes (last + 1) = byteAt bytes' (last + 1) := by
    rw [byteAt_of_lt hbytes, byteAt_of_lt hbytes', List.getElem?_eq_getElem hbytes, List.getElem?_eq_getElem hbytes',
      Option.some.injEq]
  constructor
  · intro hsame
    refine ⟨fun i hi hle => hsame i hi (Nat.le_succ_of_le hle), hlast.1 ?_⟩
    exact hsame (last + 1) h (Nat.le_refl _)
  · rintro ⟨hsame, heq⟩ i hi hle
    rcases Nat.le_succ_iff.1 hle with hle | rfl
    · exact hsame i hi hle
    · exact hlast.2 heq

end

end PenRail.Pen
