import PenRail.Proofs.Words
import PenRail.Rail.Method

/-!
# VCOM as two bytes

The nine bits of VCOM are a low byte and one bit of the next register. `join_toNat` says what number two bytes stand for;
from it, splitting and joining undo each other, and two values with the same high byte are the same only if their low
bytes are. `code_toNat` and `toInt_scaled` say that between millivolts and the register value nothing is lost but the rest of
a step of ten, and nothing overflows.
-/

namespace PenRail.Rail

namespace Vcom

/-- The byte of a register value that is written first. -/
def lowByte (code : UInt16) : UInt8 :=
  code.toUInt8

/-- The byte that is written second. -/
def highByte (code : UInt16) : UInt8 :=
  (code >>> 8).toUInt8

/-- Of the high byte only its lowest bit counts. -/
theorem join_toNat (low high : UInt8) : (join low high).toNat = low.toNat + 256 * (high.toNat % 2) := by
  have hlow := low.toNat_lt
  have hword : (low.toUInt16 ||| (high.toUInt16 <<< 8)).toNat = low.toNat + 256 * high.toNat := Pen.word_toNat low high
  rw [join, UInt16.toNat_and, hword, show Register.vcomMask.toNat = 2 ^ 9 - 1 from rfl, Nat.and_two_pow_sub_one_eq_mod]
  omega

theorem join_toNat_lt (low high : UInt8) : (join low high).toNat < 512 := by
  have hlow := low.toNat_lt
  rw [join_toNat]
  omega

theorem lowByte_toNat (code : UInt16) : (lowByte code).toNat = code.toNat % 256 :=
  UInt16.toNat_toUInt8 code

theorem highByte_toNat (code : UInt16) : (highByte code).toNat = code.toNat / 256 := by
  have hcode := code.toNat_lt
  rw [highByte, UInt16.toNat_toUInt8, UInt16.toNat_shiftRight, show (8 : UInt16).toNat % 16 = 8 from rfl,
    Nat.shiftRight_eq_div_pow]
  exact Nat.mod_eq_of_lt (by omega)

/-- Split and joined again, a value keeps its nine bits. -/
theorem join_bytes (code : UInt16) : join (lowByte code) (highByte code) = code &&& Register.vcomMask := by
  apply UInt16.toNat_inj.1
  rw [join_toNat, lowByte_toNat, highByte_toNat, UInt16.toNat_and, show Register.vcomMask.toNat = 2 ^ 9 - 1 from rfl,
    Nat.and_two_pow_sub_one_eq_mod]
  omega

/-- A value that is asked for has no more than nine bits. -/
theorem join_bytes_code (millivolts : Int32) :
    join (lowByte (code millivolts)) (highByte (code millivolts)) = code millivolts := by
  rw [join_bytes, code, UInt16.and_assoc, UInt16.and_self]

/-- With the same high byte, equal values have equal low bytes. -/
theorem join_low_inj {low low' high : UInt8} : join low high = join low' high ↔ low = low' := by
  constructor
  · intro h
    have hnat := congrArg UInt16.toNat h
    rw [join_toNat, join_toNat] at hnat
    exact UInt8.toNat_inj.1 (by omega)
  · rintro rfl
    rfl

/-- Negation overflows for the least number only. -/
theorem toInt_neg {n : Int32} (h : -2147483648 < n.toInt) : (-n).toInt = -n.toInt := by
  have hmax := n.toInt_lt
  rw [Int32.toInt_neg]
  exact Int.bmod_eq_of_le (by omega) (by omega)

/-- The range of a magnitude, in whole numbers. -/
theorem in_range_iff {millivolts : Int32} :
    0 ≤ millivolts ∧ millivolts ≤ limit ↔ 0 ≤ millivolts.toInt ∧ millivolts.toInt ≤ 5000 := by
  rw [Int32.le_iff_toInt_le, Int32.le_iff_toInt_le]
  rfl

/-- The range of a voltage as the panel sees it, in whole numbers. -/
theorem signed_in_range_iff {millivolts : Int32} :
    -limit ≤ millivolts ∧ millivolts ≤ 0 ↔ -5000 ≤ millivolts.toInt ∧ millivolts.toInt ≤ 0 := by
  rw [Int32.le_iff_toInt_le, Int32.le_iff_toInt_le]
  rfl

/-- What may be asked for as the panel sees it may be asked for as a magnitude. -/
theorem neg_in_range {millivolts : Int32} (h : -limit ≤ millivolts ∧ millivolts ≤ 0) :
    0 ≤ -millivolts ∧ -millivolts ≤ limit := by
  obtain ⟨hmin, hmax⟩ := signed_in_range_iff.1 h
  rw [in_range_iff, toInt_neg (by omega)]
  omega

/-- In range, the register value counts the whole tens: narrowing it to nine bits cuts nothing off. -/
theorem code_toNat {millivolts : Int32} (h : 0 ≤ millivolts ∧ millivolts ≤ limit) :
    ((code millivolts).toNat : Int) = millivolts.toInt / 10 := by
  obtain ⟨hmin, hmax⟩ := in_range_iff.1 h
  have hten : (10 : Int32).toInt = 10 := rfl
  have hquotient : (millivolts / 10).toInt = millivolts.toInt / 10 := by
    rw [Int32.toInt_div, hten, Int.tdiv_eq_ediv_of_nonneg (by omega)]
    exact Int.bmod_eq_of_le (by omega) (by omega)
  have hnarrow : (millivolts / 10).toInt16.toInt = millivolts.toInt / 10 := by
    rw [Int32.toInt_toInt16, hquotient]
    exact Int.bmod_eq_of_le (by omega) (by omega)
  have hword := Pen.toInt_toInt16 (millivolts / 10).toInt16.toUInt16
  rw [show (millivolts / 10).toInt16.toUInt16.toInt16 = (millivolts / 10).toInt16 from rfl, hnarrow] at hword
  rw [code, UInt16.toNat_and, show Register.vcomMask.toNat = 2 ^ 9 - 1 from rfl, Nat.and_two_pow_sub_one_eq_mod]
  split at hword <;> omega

/-- Nine bits in units of up to ten thousand do not overflow. -/
theorem toInt_scaled {step : Int32} {code : UInt16} (hstep : 0 ≤ step.toInt ∧ step.toInt ≤ 10000)
    (hcode : code.toNat < 512) : (scaled step code).toInt = step.toInt * code.toNat := by
  have hfactor : (Int32.ofNat code.toNat).toInt = code.toNat := Int32.toInt_ofNat_of_lt (by omega)
  have hmin : 0 ≤ step.toInt * code.toNat := Int.mul_nonneg hstep.1 (by omega)
  have hmax : step.toInt * code.toNat ≤ 10000 * 512 := Int.mul_le_mul hstep.2 (by omega) (by omega) (by omega)
  rw [scaled, Int32.toInt_mul, hfactor, Int.mul_comm]
  exact Int.bmod_eq_of_le (by omega) (by omega)

end Vcom

end PenRail.Rail
