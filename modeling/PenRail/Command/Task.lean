import PenRail.Command.Failure
import PenRail.Host

/-!
# What commands are made of

A command talks to the machine and to the log. A `Task` is a part of a command that stops at the first failure.
-/

namespace PenRail.Command

inductive Request
  | host (q : Host.Request)
  | log (entry : Log.Entry)

abbrev Request.Reply : Request → Type
  | .host q => q.Reply
  | .log _ => Unit

abbrev interface : Interface := ⟨Request, Request.Reply⟩

abbrev Task (α : Type) := ExceptT Failure (Program interface) α

def host (q : Host.Request) : Program interface q.Reply :=
  Program.request (I := interface) (.host q)

def say (level : Log.Level) (text : String) : Program interface Unit :=
  Program.request (I := interface) (.log ⟨level, text⟩)

def print (line : String) : Program interface Unit :=
  host (.print line)

def report (line : String) : Program interface Unit :=
  host (.report (line ++ "\n"))

/-- A part of a task that may fail, with what its failure is to the command. -/
def attempt {ε α : Type} (failure : ε → Failure) (p : Program interface (Except ε α)) : Task α :=
  ExceptT.mk do pure ((← p).mapError failure)

/-- Where a chip is: an adapter and an address on it. -/
structure Place where
  path : String
  address : UInt8
  deriving DecidableEq, Repr

/-- Opens the adapter of a chip. The address has to fit a transfer. -/
def Place.reach (path : String) (address : UInt16) : Task Place := do
  if 0xff < address.toNat then
    throw .address
  attempt .adapter (host (.openAdapter path))
  say .debug s!"Opened {path} for device 0x{Text.hex2 address.toNat}"
  pure ⟨path, address.toUInt8⟩

/-- A transfer with the chip at a place. -/
def Place.transfer (place : Place) (t : Bus.Transfer) : Program interface (Except Bus.Failure t.Reply) :=
  (Bus.bindTo place.address t).under fun q => host (.transfer place.path q)

/-- Makes an input line ready for reading. -/
def setUpLine (line : UInt64) : Task Unit := do
  attempt .lineSetup (host (.setUpLine line .exportLine))
  attempt .lineSetup (host (.setUpLine line .direction))
  attempt .lineSetup (host (.setUpLine line .activeLow))

end PenRail.Command
