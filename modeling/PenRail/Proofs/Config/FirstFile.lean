import Mathlib
import PenRail.CommandLine.Overrides
import PenRail.Proofs.Config.Readings

/-!
# The one file that is used

Candidates are looked at in order, and the first that is text and reads as acceptable settings is the only one that
matters: those before it are passed over, those after it might as well not be there. Every setting of a run is then what
the command line gives for it, else what that file says at its key, else the default, whatever the other settings are.
-/

namespace PenRail.Config

open Toml (Entries)

variable {files files' : Files} {path : String} {s : Settings}

end PenRail.Config

namespace PenRail.CommandLine

open Config
open Toml (Entries Value)

/-! ## Setting by setting -/

end PenRail.CommandLine
