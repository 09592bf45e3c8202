import PenRail.Rail.Controller

/-!
# What can be asked of the rail

Every operation of the controller as a value, so that a whole session is a list of them.
-/

namespace PenRail.Rail

inductive Method
  | init
  | enable
  | disable
  | isEnabled
  | waitPowerGood
  | readStatus
  | faultState
  | powerGood
  | getVoltage
  | setVoltage (millivolts : Int32)
  | getVcom
  | setVcom (millivolts : Int32)
  | getMicrovolts
  | readTemperature
  deriving DecidableEq, Repr

/-- What an operation answers when it succeeds. -/
inductive Answer
  | unit
  | bool (b : Bool)
  | int (i : Int)
  | text (s : String)
  | status (s : Status)
  deriving DecidableEq, Repr

/-- A command that leaves the view alone, as an operation of the controller. -/
def Controller.keep {α : Type} (c : Controller) (answer : α → Answer) (p : Program interface (Result α)) :
    Program interface (Outcome Answer) := do
  pure ((← p).map answer, c)

/-- A step that may change the view, as an operation of the controller. -/
def Controller.change {α : Type} (answer : α → Answer) (p : Program interface (Outcome α)) :
    Program interface (Outcome Answer) := do
  let (result, c) ← p
  pure (result.map answer, c)

/-- Carries an operation out. -/
def Controller.call (c : Controller) : Method → Program interface (Outcome Answer)
  | .init => c.keep (fun _ => .unit) clearPowerOnDelay
  | .enable => Controller.change (fun _ => .unit) c.enable
  | .disable => Controller.change (fun _ => .unit) c.disable
  | .isEnabled => c.keep .bool readOnOff
  | .waitPowerGood => c.keep .bool waitPowerGood
  | .readStatus => Controller.change .status c.readStatus
  | .faultState => Controller.change .text c.describeFault
  | .powerGood => c.keep .bool readPowerGood
  | .getVoltage => c.keep (.int ·.toInt) Vcom.read
  | .setVoltage millivolts => c.keep (fun _ => .unit) (Vcom.write millivolts)
  | .getVcom => c.keep (.int ·.toInt) Vcom.readSigned
  | .setVcom millivolts => c.keep (fun _ => .unit) (Vcom.writeSigned millivolts)
  | .getMicrovolts => c.keep (.int ·.toInt) Vcom.readMicrovolts
  | .readTemperature => c.keep (.int ·.toInt) readTemperature

/-- Carries a list of operations out, one after the other, and keeps every result. -/
def Controller.calls (c : Controller) : List Method → Program interface (List (Result Answer) × Controller)
  | [] => pure ([], c)
  | m :: rest => do
    let (result, c) ← c.call m
    let (results, c) ← c.calls rest
    pure (result :: results, c)

end PenRail.Rail
