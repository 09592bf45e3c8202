/-!
# Payloads that do not match their layout
-/

namespace PenRail

/-- Why bytes read from a device could not be understood. -/
inductive Malformed
  | short (expected actual : Nat)
  | unexpected (field : String) (value : UInt8)
  deriving DecidableEq, Repr

namespace Malformed

def message : Malformed → String
  | .short expected actual => s!"buffer too short: need {expected} bytes, got {actual}"
  | .unexpected field value => s!"unexpected value read from device for {field}: {value}"

/-- The error by its parts, as a report to an operator shows it. -/
def detail : Malformed → String
  | .short expected actual => s!"ShortBuffer \x7b expected: {expected}, actual: {actual} \x7d"
  | .unexpected field value => s!"UnexpectedValue \x7b field: \"{field}\", value: {value} \x7d"

end Malformed

end PenRail
