/-!
# Numbers given as arguments

An optional plus sign and digits, nothing else: no blanks, no separators, and a minus sign only where negative numbers
are meant. The first thing wrong from the left is what is reported.
-/

namespace PenRail.Config

/-- Why a text is not a number. -/
inductive BadNumber
  | empty
  | invalidDigit
  | tooLarge
  | tooSmall
  deriving DecidableEq, Repr

def BadNumber.message : BadNumber → String
  | .empty => "cannot parse integer from empty string"
  | .invalidDigit => "invalid digit found in string"
  | .tooLarge => "number too large to fit in target type"
  | .tooSmall => "number too small to fit in target type"

/-- The value of a digit in a base of at most 16; letters count in either case. -/
def digit? (base : Nat) (c : Char) : Option Nat :=
  let value? :=
    if '0' ≤ c && c ≤ '9' then some (c.toNat - '0'.toNat)
    else if 'a' ≤ c && c ≤ 'f' then some (c.toNat - 'a'.toNat + 10)
    else if 'A' ≤ c && c ≤ 'F' then some (c.toNat - 'A'.toNat + 10)
    else none
  value?.filter (· < base)

/-- Reads digits after those that made `n`. As soon as the number is above `max` it is refused with `above`. -/
def readDigits (base max : Nat) (above : BadNumber) (n : Nat) : List Char → Except BadNumber Nat
  | [] => .ok n
  | c :: rest =>
    match digit? base c with
    | none => .error .invalidDigit
    | some d => if max < n * base + d then .error above else readDigits base max above (n * base + d) rest

/-- A number from 0 to `max`. -/
def readNat (base max : Nat) : List Char → Except BadNumber Nat
  | [] => .error .empty
  | ['+'] => .error .invalidDigit
  | '+' :: rest => readDigits base max .tooLarge 0 rest
  | text => readDigits base max .tooLarge 0 text

/-- A signed decimal number of 32 bits. -/
def readInt32 : List Char → Except BadNumber Int32
  | ['-'] => .error .invalidDigit
  | '-' :: rest => (readDigits 10 0x80000000 .tooSmall 0 rest).map fun n => Int32.ofInt (-n)
  | text => (readNat 10 0x7fffffff text).map Int32.ofNat

/-- A decimal number of 64 bits. -/
def readUInt64 (text : List Char) : Except BadNumber UInt64 :=
  (readNat 10 0xffffffffffffffff text).map UInt64.ofNat

end PenRail.Config
