import PenRail.Command.Inspect
import PenRail.Command.Power
import PenRail.CommandLine.Overrides
import PenRail.Log.Filter

/-!
# The whole program

From the arguments to the exit code. The command line is read first, then the log is set up, the settings are found and
checked, and only then does a command begin. It is a process over the machine alone: log entries that the filter lets
through have become text of the message stream.
-/

namespace PenRail

open Config (Files Settings)

/-- What the surroundings say besides the arguments. -/
structure Environment where
  configPath : Option String := none
  home : Option String := none
  logFilter : Option String := none
  deriving DecidableEq, Repr

namespace Run

open Command (say report)

def version : String := "rm-periph 0.1.0"

/-- The name of the program in its log. -/
def logTarget : String := "rm_periph"

/-- What is shown of the log unless the surroundings say otherwise: commands that print keep quiet. -/
def defaultVerbosity : CommandLine.Command → Log.Verbosity
  | .dump _ | .caps => Log.Level.warn.verbosity
  | .pen | .power _ => Log.Level.info.verbosity

/-- The filter for a command, and what there is to complain about it. -/
def filter (env : Environment) (command : CommandLine.Command) : Log.Filter × List String :=
  match env.logFilter with
  | some text => Log.Filter.read text
  | none => (Log.Filter.all (defaultVerbosity command), [])

/-- Log entries become messages if they are shown, all else goes to the machine. -/
def showing (filter : Log.Filter) : (q : Command.Request) → Program Host.interface q.Reply
  | .host q => Program.request (I := Host.interface) q
  | .log entry =>
    if filter.shows logTarget entry.level then Program.request (I := Host.interface) (.report entry.shown) else pure ()

/-- What a command does with its settings. -/
def commandProcess (s : Settings) : CommandLine.Command → Process Command.interface (Except Command.Failure Unit)
  | .pen => Command.forward s.digitizer
  | .caps => .once (Command.printCapabilities s.digitizer).run
  | .dump count => Command.dump s.digitizer count
  | .power action => .once (Command.power s.regulator action).run

/-- The exit code of a command that is over; a failure is reported. -/
def exitCode : Except Command.Failure Unit → Program Command.interface UInt8
  | .ok () => pure 0
  | .error failure => do
    report ("Error: " ++ failure.detail)
    pure 1

/-- Makes entries in the log, in order. -/
def sayAll : List Log.Entry → Program Command.interface Unit
  | [] => pure ()
  | entry :: rest => do
    say entry.level entry.text
    sayAll rest

/-- Runs a command, if its settings can be used. -/
def configured (s : Settings) (command : CommandLine.Command) : Process Command.interface UInt8 :=
  match s.check with
  | .error invalid => .once do
    report ("Error: " ++ invalid.message)
    pure 1
  | .ok () => (commandProcess s command).followedBy exitCode

/-- Reports lines in order. -/
def reportAll : List String → Program Host.interface Unit
  | [] => pure ()
  | line :: rest => do
    Program.request (I := Host.interface) (.report (line ++ "\n"))
    reportAll rest

/-- Runs what was invoked. -/
def invoked (env : Environment) (files : Files) (invocation : CommandLine.Invocation) : Process Host.interface UInt8 :=
  let (filter, complaints) := filter env invocation.command
  let (settings, entries) := invocation.given.settings files env.home
  ((configured settings invocation.command).after (sayAll entries)).under (showing filter) |>.after (reportAll complaints)

/-- What is done instead of a command. -/
def stopped (stop : CommandLine.Stop) : Program Host.interface UInt8 := do
  match stop with
  | .help => do
    Program.request (I := Host.interface) (.usage true)
    pure 0
  | .version => do
    Program.request (I := Host.interface) (.print version)
    pure 0
  | .usage => do
    Program.request (I := Host.interface) (.usage false)
    pure 2

/-- The paths at which a file may be read. -/
def wanted (env : Environment) (arguments : List String) : List String :=
  match CommandLine.parse env.configPath arguments with
  | .error _ => []
  | .ok invocation => Config.candidates invocation.given.config env.home

end Run

/-- The program, from its arguments to its exit code. -/
def run (env : Environment) (files : Files) (arguments : List String) : Process Host.interface UInt8 :=
  match CommandLine.parse env.configPath arguments with
  | .error stop => .once (Run.stopped stop)
  | .ok invocation => Run.invoked env files invocation

end PenRail
