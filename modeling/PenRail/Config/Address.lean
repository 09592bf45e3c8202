import PenRail.Config.Number
import PenRail.Config.Settings

/-!
# Bus addresses given as arguments

Decimal, or hexadecimal behind `0x`. A device address has seven bits.
-/

namespace PenRail.Config

/-- Why a text is not an address. -/
inductive BadAddress
  | notANumber (text : String) (why : BadNumber)
  | notSevenBits (value : Nat)
  deriving DecidableEq, Repr

def BadAddress.message : BadAddress → String
  | .notANumber text why => s!"Invalid I2C address '{text}': {why.message}"
  | .notSevenBits value => s!"I2C address 0x{Text.hex value} is not a 7-bit address"

/-- The number before its range is looked at: sixteen bits, decimal or behind a prefix hexadecimal. -/
def readAddressNumber : List Char → Except BadNumber Nat
  | '0' :: 'x' :: rest => readNat 16 0xffff rest
  | '0' :: 'X' :: rest => readNat 16 0xffff rest
  | text => readNat 10 0xffff text

def readAddress (text : String) : Except BadAddress UInt16 :=
  match readAddressNumber text.toList with
  | .error why => .error (.notANumber text why)
  | .ok n => if maxAddress < n then .error (.notSevenBits n) else .ok (UInt16.ofNat n)

end PenRail.Config
