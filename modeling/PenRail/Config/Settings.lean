import PenRail.Rail.Register
import PenRail.Text.Digits

/-!
# Settings

Where the two chips are and how their lines are read. Every setting has a default, so settings can be given one by one,
by a file or by the command line. `Settings.check` is what has to hold before any device is touched.
-/

namespace PenRail.Config

/-- Where the digitizer is and how its reports are picked up. -/
structure DigitizerSettings where
  bus : String := "/dev/i2c-1"
  address : UInt16 := 9
  /-- The data-ready line; without one the digitizer is polled. -/
  irqLine : Option UInt64 := none
  /-- Milliseconds. -/
  pollInterval : UInt64 := 5
  deriving DecidableEq, Repr

/-- Where the regulator is and how power good is read. -/
structure RegulatorSettings where
  bus : String := "/dev/i2c-3"
  address : UInt16 := Rail.Register.defaultAddress.toUInt16
  powerGoodLine : Option UInt64 := none
  powerGoodActiveLow : Bool := false
  deriving DecidableEq, Repr

structure Settings where
  digitizer : DigitizerSettings := {}
  regulator : RegulatorSettings := {}
  deriving DecidableEq, Repr

/-- The largest address that a device can have. -/
def maxAddress : Nat := 0x7f

/-- Why settings cannot be used. -/
inductive Invalid
  | address (device : String) (value : UInt16)
  | noInterval
  deriving DecidableEq, Repr

def Invalid.message : Invalid → String
  | .address device value => s!"{device} address 0x{Text.hex value.toNat} is not a 7-bit address"
  | .noInterval => "Poll interval must be at least 1 ms"

/-- Both addresses have seven bits and polling takes time. -/
def Settings.check (s : Settings) : Except Invalid Unit :=
  if maxAddress < s.digitizer.address.toNat then
    .error (.address "digitizer" s.digitizer.address)
  else if maxAddress < s.regulator.address.toNat then
    .error (.address "regulator" s.regulator.address)
  else if s.digitizer.pollInterval = 0 then
    .error .noInterval
  else
    .ok ()

end PenRail.Config
