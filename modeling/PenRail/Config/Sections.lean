import PenRail.Config.Settings
import PenRail.Toml.Document

/-!
# What a configuration file may say

A file has a section for the digitizer and one for the regulator. Either may be absent, and so may any of its settings;
what is absent has its default. Nothing else may be in the file, and every setting has its type and range.

A section is a table, or the list of its settings in order. In a list the line number may not be left out; a last setting
with a default may, and more than the settings may follow.
-/

namespace PenRail.Config

open Toml (Value Entries)

/-! ## Settings by type -/

def path? : Value → Option String
  | .string s => some s
  | _ => none

def flag? : Value → Option Bool
  | .boolean b => some b
  | _ => none

/-- An integer that is not negative. -/
def natural? : Value → Option UInt64
  | .integer i => if 0 ≤ i then some i.toUInt64 else none
  | _ => none

/-- An integer of sixteen bits without sign. -/
def address? (v : Value) : Option UInt16 := do
  let n ← natural? v
  if n.toNat < UInt16.size then some n.toUInt16 else none

/-- The setting of a key: its default where the key is absent. -/
def setting {α : Type} (entries : Entries) (key : String) (read : Value → Option α) (default : α) : Option α :=
  match entries.lookup key with
  | none => some default
  | some v => read v

/-- Every key is one of these. -/
def onlyKeys (keys : List String) (entries : Entries) : Bool :=
  entries.all fun e => keys.contains e.1

/-! ## Sections -/

namespace DigitizerSettings

def keys : List String := ["bus", "address", "irq_gpio", "poll_interval_ms"]

def ofTable (entries : Entries) : Option DigitizerSettings := do
  guard (onlyKeys keys entries)
  let default : DigitizerSettings := {}
  let bus ← setting entries "bus" path? default.bus
  let address ← setting entries "address" address? default.address
  let irqLine ← setting entries "irq_gpio" (some <$> natural? ·) default.irqLine
  let pollInterval ← setting entries "poll_interval_ms" natural? default.pollInterval
  some { bus, address, irqLine, pollInterval }

def ofList : List Value → Option DigitizerSettings
  | bus :: address :: irqLine :: rest => do
    let default : DigitizerSettings := {}
    let bus ← path? bus
    let address ← address? address
    let irqLine ← natural? irqLine
    let pollInterval ← match rest with
      | [] => some default.pollInterval
      | v :: _ => natural? v
    some { bus, address, irqLine := some irqLine, pollInterval }
  | _ => none

def ofValue : Value → Option DigitizerSettings
  | .table entries => ofTable entries
  | .array items => ofList items
  | _ => none

end DigitizerSettings

namespace RegulatorSettings

def keys : List String := ["bus", "address", "pgood_gpio", "pgood_active_low"]

def ofTable (entries : Entries) : Option RegulatorSettings := do
  guard (onlyKeys keys entries)
  let default : RegulatorSettings := {}
  let bus ← setting entries "bus" path? default.bus
  let address ← setting entries "address" address? default.address
  let powerGoodLine ← setting entries "pgood_gpio" (some <$> natural? ·) default.powerGoodLine
  let powerGoodActiveLow ← setting entries "pgood_active_low" flag? default.powerGoodActiveLow
  some { bus, address, powerGoodLine, powerGoodActiveLow }

def ofList : List Value → Option RegulatorSettings
  | bus :: address :: powerGoodLine :: rest => do
    let default : RegulatorSettings := {}
    let bus ← path? bus
    let address ← address? address
    let powerGoodLine ← natural? powerGoodLine
    let powerGoodActiveLow ← match rest with
      | [] => some default.powerGoodActiveLow
      | v :: _ => flag? v
    some { bus, address, powerGoodLine := some powerGoodLine, powerGoodActiveLow }
  | _ => none

def ofValue : Value → Option RegulatorSettings
  | .table entries => ofTable entries
  | .array items => ofList items
  | _ => none

end RegulatorSettings

/-- The settings that a document holds, if it is acceptable as a configuration. -/
def Settings.ofDocument (document : Entries) : Option Settings := do
  guard (onlyKeys ["digitizer", "regulator"] document)
  let digitizer ← setting document "digitizer" DigitizerSettings.ofValue {}
  let regulator ← setting document "regulator" RegulatorSettings.ofValue {}
  some { digitizer, regulator }

/-- The settings in the text of a file, if it is a configuration. -/
def Settings.ofText (text : String) : Option Settings := do
  Settings.ofDocument (← Toml.parse text)

end PenRail.Config
