import PenRail.Config.Address

/-!
# Words of the command line

The commands form a tree: a level is a place in it, and the next word may name a level below. Options may stand at every
level. An option has one value, whose text is checked when the option is settled, and is given at most once per level.
-/

namespace PenRail.CommandLine

inductive PowerAction
  | enable
  | disable
  | status
  /-- Shows VCOM, after setting it to so many millivolts if asked to. -/
  | vcom (set : Option Int32)
  | temperature
  deriving DecidableEq, Repr

inductive Command
  | pen
  | caps
  | dump (count : Option UInt64)
  | power (action : PowerAction)
  deriving DecidableEq, Repr

/-- A place in the tree of commands. -/
inductive Level
  | top
  | pen
  | caps
  | dump
  | power
  | enable
  | disable
  | status
  | vcom
  | temperature
  | help
  deriving DecidableEq, Repr

/-- The levels below, by the word that leads there. -/
def Level.below : Level → List (String × Level)
  | .top => [("pen", .pen), ("caps", .caps), ("dump", .dump), ("power", .power), ("help", .help)]
  | .power =>
    [("enable", .enable), ("disable", .disable), ("status", .status), ("vcom", .vcom), ("temperature", .temperature),
      ("help", .help)]
  | _ => []

/-- An option with a value. -/
inductive ValueOption
  | penBus
  | penAddress
  | penIrqLine
  | pollInterval
  | powerBus
  | powerAddress
  | powerGoodLine
  | config
  | count
  | set
  deriving DecidableEq, Repr

/-- What a word behind two dashes means. -/
inductive Word
  | option (o : ValueOption)
  | activeLow
  | help
  | version
  deriving DecidableEq, Repr

/-- The words that every level knows. -/
def commonWords : List (String × Word) :=
  [("pen-bus", .option .penBus),
    ("pen-address", .option .penAddress),
    ("pen-irq-gpio", .option .penIrqLine),
    ("poll-interval-ms", .option .pollInterval),
    ("power-bus", .option .powerBus),
    ("power-address", .option .powerAddress),
    ("pgood-gpio", .option .powerGoodLine),
    ("pgood-active-low", .activeLow),
    ("config", .option .config),
    ("help", .help)]

/-- The words of one level. -/
def Level.words (level : Level) : List (String × Word) :=
  commonWords ++
    match level with
    | .top => [("version", .version)]
    | .dump => [("count", .option .count)]
    | .vcom => [("set", .option .set)]
    | _ => []

/-- The letters behind one dash. -/
def Level.letters : Level → List (Char × Word)
  | .top => [('h', .help), ('V', .version)]
  | _ => [('h', .help)]

/-- Whether the option takes the next argument whatever it looks like. -/
def ValueOption.takesAnything : ValueOption → Bool
  | .set => true
  | _ => false

/-- What was given at one level, or at several together. -/
structure Given where
  penBus : Option String := none
  penAddress : Option UInt16 := none
  penIrqLine : Option UInt64 := none
  pollInterval : Option UInt64 := none
  powerBus : Option String := none
  powerAddress : Option UInt16 := none
  powerGoodLine : Option UInt64 := none
  activeLow : Bool := false
  config : Option String := none
  count : Option UInt64 := none
  set : Option Int32 := none
  deriving DecidableEq, Repr

/-- A path, which may not be empty. -/
def readPath (text : String) : Option String :=
  if text.isEmpty then none else some text

def readLine? (text : String) : Option UInt64 :=
  (Config.readUInt64 text.toList).toOption

/-- A setting that is still free takes its value, if there is one. -/
def fill {α : Type} (free : Option α) (value : Option α) : Option (Option α) :=
  match free, value with
  | none, some a => some (some a)
  | _, _ => none

/-- Settles an option: its value must be readable, and it must not have been given before. -/
def Given.settle (g : Given) (o : ValueOption) (text : String) : Option Given :=
  match o with
  | .penBus => (fill g.penBus (readPath text)).map fun penBus => { g with penBus }
  | .penAddress => (fill g.penAddress (Config.readAddress text).toOption).map fun penAddress => { g with penAddress }
  | .penIrqLine => (fill g.penIrqLine (readLine? text)).map fun penIrqLine => { g with penIrqLine }
  | .pollInterval => (fill g.pollInterval (readLine? text)).map fun pollInterval => { g with pollInterval }
  | .powerBus => (fill g.powerBus (readPath text)).map fun powerBus => { g with powerBus }
  | .powerAddress => (fill g.powerAddress (Config.readAddress text).toOption).map fun powerAddress => { g with powerAddress }
  | .powerGoodLine => (fill g.powerGoodLine (readLine? text)).map fun powerGoodLine => { g with powerGoodLine }
  | .config => (fill g.config (readPath text)).map fun config => { g with config }
  | .count => (fill g.count (readLine? text)).map fun count => { g with count }
  | .set => (fill g.set (Config.readInt32 text.toList).toOption).map fun set => { g with set }

/-- What is given at a deeper level wins over what is given above it. -/
def Given.over (deeper above : Given) : Given where
  penBus := deeper.penBus <|> above.penBus
  penAddress := deeper.penAddress <|> above.penAddress
  penIrqLine := deeper.penIrqLine <|> above.penIrqLine
  pollInterval := deeper.pollInterval <|> above.pollInterval
  powerBus := deeper.powerBus <|> above.powerBus
  powerAddress := deeper.powerAddress <|> above.powerAddress
  powerGoodLine := deeper.powerGoodLine <|> above.powerGoodLine
  activeLow := deeper.activeLow || above.activeLow
  config := deeper.config <|> above.config
  count := deeper.count <|> above.count
  set := deeper.set <|> above.set

end PenRail.CommandLine
