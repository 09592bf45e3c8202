import PenRail.Malformed

/-!
# Faults latched by the regulator

The fault flag byte carries power good in bit 0 and, above it, the number of a fault. Only sixteen numbers mean anything;
the bits above them are not masked off, so a chip that sets one is reported rather than taken for another fault.
-/

namespace PenRail.Rail

/-- What the regulator shut down for: an output that was too low (`uvp`) or short-circuited (`scp`), too little supply,
or too much heat. -/
inductive Fault
  | none
  | uvpVp
  | uvpVn
  | uvpVpos
  | uvpVneg
  | uvpVddh
  | uvpVee
  | scpVp
  | scpVn
  | scpVpos
  | scpVneg
  | scpVddh
  | scpVee
  | scpVcom
  | uvlo
  | thermalShutdown
  deriving DecidableEq, Repr, Inhabited

namespace Fault

/-- The faults in the order of their numbers. -/
def table : List Fault :=
  [none, uvpVp, uvpVn, uvpVpos, uvpVneg, uvpVddh, uvpVee, scpVp, scpVn, scpVpos, scpVneg, scpVddh, scpVee, scpVcom, uvlo,
    thermalShutdown]

/-- The fault in a fault flag byte. -/
def ofStatus (status : UInt8) : Except Malformed Fault :=
  match table[(status >>> 1).toNat]? with
  | some fault => .ok fault
  | Option.none => .error (.unexpected "fault flag" (status >>> 1))

def description : Fault → String
  | none => "no fault event"
  | uvpVp => "UVP at VP rail"
  | uvpVn => "UVP at VN rail"
  | uvpVpos => "UVP at VPOS rail"
  | uvpVneg => "UVP at VNEG rail"
  | uvpVddh => "UVP at VDDH rail"
  | uvpVee => "UVP at VEE rail"
  | scpVp => "SCP at VP rail"
  | scpVn => "SCP at VN rail"
  | scpVpos => "SCP at VPOS rail"
  | scpVneg => "SCP at VNEG rail"
  | scpVddh => "SCP at VDDH rail"
  | scpVee => "SCP at VEE rail"
  | scpVcom => "SCP at V COM rail"
  | uvlo => "UVLO"
  | thermalShutdown => "Thermal shutdown"

def isFault (f : Fault) : Bool :=
  f != none

end Fault

end PenRail.Rail
