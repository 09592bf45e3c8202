import PenRail.Run

/-!
# The command line

Runs the program on this machine. Arguments, environment, files and the two streams are the real ones; devices are not
attached, so a command gets as far as opening its adapter.
-/

namespace PenRail.Main

/-- How the program is used. -/
def usage : List String :=
  ["Usage: rm-periph [OPTIONS] <COMMAND>",
    "",
    "Commands:",
    "  pen                                  Forward pen input to a uinput device",
    "  caps                                 Print the digitizer's capabilities",
    "  dump [--count N]                     Print decoded pen reports for debugging",
    "  power enable | disable | status      Control the e-paper power rail",
    "  power vcom [--set MILLIVOLTS]        Show or set VCOM",
    "  power temperature                    Show the thermistor readout",
    "",
    "Options: --pen-bus, --pen-address, --pen-irq-gpio, --poll-interval-ms, --power-bus, --power-address,",
    "  --pgood-gpio, --pgood-active-low, --config, --help, --version"]

def milliseconds (nanoseconds : Nat) : UInt32 :=
  UInt32.ofNat (min (nanoseconds / Rail.millisecond) 0xffffffff)

def noDevice : String := "NoSuchDevice"

/-- What this machine answers. -/
def answer : (q : Host.Request) → IO q.Reply
  | .openAdapter _ => pure (.error noDevice)
  | .transfer _ _ => pure (.error .other)
  | .setUpLine _ _ => pure (.error noDevice)
  | .readLine _ => pure (.error noDevice)
  | .uinput _ => pure (.error noDevice)
  | .systemName => pure none
  | .delay nanoseconds => IO.sleep (milliseconds nanoseconds)
  | .sleep nanoseconds => IO.sleep (milliseconds nanoseconds)
  | .print line => IO.println line
  | .report text => IO.eprint text
  | .usage asked => if asked then usage.forM (IO.println ·) else usage.forM (IO.eprintln ·)

/-- Goes round until the process is over. -/
partial def serve (p : Process Host.interface UInt8) : Turn p.State UInt8 → IO UInt8
  | .over code => pure code
  | .again s => do serve p (← (p.round s).under answer)

/-- The file at a path, if it can be read. -/
def load (path : String) : IO (Option (String × ByteArray)) := do
  try
    pure (some (path, ← IO.FS.readBinFile path))
  catch _ =>
    pure none

end PenRail.Main

def main (arguments : List String) : IO UInt32 := do
  let env : PenRail.Environment := {
    configPath := ← IO.getEnv "RMPERIPH_CONFIG"
    home := ← IO.getEnv "HOME"
    logFilter := ← IO.getEnv "RUST_LOG" }
  let files ← (PenRail.Run.wanted env arguments).filterMapM PenRail.Main.load
  let process := PenRail.run env (fun path => List.lookup path files) arguments
  let code ← PenRail.Main.serve process (← process.start.under PenRail.Main.answer)
  pure code.toUInt32
