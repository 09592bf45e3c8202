import PenRail.CommandLine.Grammar

/-!
# Reading the command line

Arguments are read from the left. An option whose value is the next argument is settled only when the next option comes
up at its level, or when the level ends, which is after all levels below it have been read. So a request for help
further right can come first and a bad value is then never looked at.

The configuration path may come from the environment. It is looked at whenever a level ends at which no path was given.
-/

namespace PenRail.CommandLine

/-- Why there is no command to run. -/
inductive Stop
  /-- Help was asked for, and shown. -/
  | help
  /-- The version was asked for, and shown. -/
  | version
  /-- The command line is not understood. -/
  | usage
  deriving DecidableEq, Repr

/-- A level while it is read. -/
structure Progress where
  given : Given := {}
  /-- An option that is not settled yet, with its value once that has been read. -/
  pending : Option (ValueOption × Option String) := none

namespace Progress

/-- The option whose value comes next. -/
def awaiting (p : Progress) : Option ValueOption :=
  match p.pending with
  | some (o, none) => some o
  | _ => none

/-- Settles the pending option. One without a value cannot be settled. -/
def settle (p : Progress) : Except Stop Given :=
  match p.pending with
  | none => .ok p.given
  | some (_, none) => .error .usage
  | some (o, some text) =>
    match p.given.settle o text with
    | some given => .ok given
    | none => .error .usage

/-- Takes a word, with the value attached to it by an equals sign. -/
def word (p : Progress) (w : Word) (attached : Option String) : Except Stop Progress := do
  let given ← p.settle
  match w, attached with
  | .option o, none => .ok ⟨given, some (o, none)⟩
  | .option o, some text =>
    match given.settle o text with
    | some given => .ok ⟨given, none⟩
    | none => .error .usage
  | .activeLow, none => if given.activeLow then .error .usage else .ok ⟨{ given with activeLow := true }, none⟩
  | .help, none => .error .help
  | .version, none => .error .version
  | _, some _ => .error .usage

/-- Takes letters behind one dash, in order. -/
def letters (level : Level) (p : Progress) : List Char → Except Stop Progress
  | [] => .ok p
  | c :: rest =>
    match level.letters.lookup c with
    | none => .error .usage
    | some w => do
      let p ← p.word w none
      letters level p rest

end Progress

/-- How an argument begins. -/
inductive Shape
  /-- Two dashes, a word, and perhaps a value after an equals sign. -/
  | long (word : String) (attached : Option String)
  /-- One dash and letters. -/
  | short (letters : List Char)
  /-- Two dashes alone: no option follows any more. -/
  | rest
  | plain
  deriving DecidableEq, Repr

/-- Cuts at the first equals sign. -/
def splitAtEquals (text : List Char) : String × Option String :=
  match text.dropWhile (· != '=') with
  | [] => (String.ofList text, none)
  | _ :: value => (String.ofList (text.takeWhile (· != '=')), some (String.ofList value))

def shape (argument : String) : Shape :=
  match argument.toList with
  | ['-', '-'] => .rest
  | '-' :: '-' :: text =>
    let (word, attached) := splitAtEquals text
    .long word attached
  | '-' :: c :: text => .short (c :: text)
  | _ => .plain

/-- Follows the words after `help` down the tree. -/
def askHelp (level : Level) : List String → Stop
  | [] => .help
  | word :: rest =>
    match level.below.lookup word with
    | none => .usage
    | some next => askHelp next rest

/-- Whether a path from the environment can be used. -/
def environmentOk : Option String → Bool
  | some text => !text.isEmpty
  | none => true

/-- Ends a level, with what the level below it came to. -/
def finish (environment : Option String) (level : Level) (p : Progress) (inner : Option (Level × Given)) :
    Except Stop (Level × Given) := do
  let given ← p.settle
  if given.config.isNone && !environmentOk environment then
    .error .usage
  else
    match inner with
    | some (reached, deeper) => .ok (reached, deeper.over given)
    | none => if level.below.isEmpty then .ok (level, given) else .error .usage

/-- Reads a level and all below it: the level that was reached, and all that was given on the way. -/
def read (environment : Option String) (level : Level) (p : Progress) : List String → Except Stop (Level × Given)
  | [] => finish environment level p none
  | argument :: rest =>
    match p.awaiting with
    | some o =>
      if o.takesAnything || shape argument = .plain then
        read environment level { p with pending := some (o, some argument) } rest
      else
        .error .usage
    | none =>
      match level.below.lookup argument with
      | some .help => .error (askHelp level rest)
      | some next => do
        let inner ← read environment next {} rest
        finish environment level p (some inner)
      | none =>
        match shape argument with
        | .long word attached =>
          match level.words.lookup word with
          | none => .error .usage
          | some w => do
            let p ← p.word w attached
            read environment level p rest
        | .short letters => do
          let p ← p.letters level letters
          read environment level p rest
        | .rest => if rest.isEmpty then finish environment level p none else .error .usage
        | .plain => .error .usage

/-- The command that a level stands for. -/
def Level.command? (level : Level) (given : Given) : Option Command :=
  match level with
  | .pen => some .pen
  | .caps => some .caps
  | .dump => some (.dump given.count)
  | .enable => some (.power .enable)
  | .disable => some (.power .disable)
  | .status => some (.power .status)
  | .vcom => some (.power (.vcom given.set))
  | .temperature => some (.power .temperature)
  | .top | .power | .help => none

/-- A command, and what was given beside it. -/
structure Invocation where
  command : Command
  given : Given
  deriving DecidableEq, Repr

/-- Reads the arguments of the program. -/
def parse (environment : Option String) (arguments : List String) : Except Stop Invocation := do
  let (level, given) ← read environment .top {} arguments
  match level.command? given with
  | some command => .ok ⟨command, { given with config := given.config <|> environment }⟩
  | none => .error .usage

end PenRail.CommandLine
