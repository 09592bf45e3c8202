import PenRail.Log

/-!
# Which log entries are shown

A filter is a list of directives, written with commas in between. A directive is a level, the name of a part of the
program, or a name and a level; of the directives that name the beginning of a target the longest decides how much of it
is shown.
-/

namespace PenRail.Log

/-- How much is shown: nothing at 0, and then each level from `Level.verbosity` up. -/
abbrev Verbosity := Nat

/-- Everything is shown. -/
def everything : Verbosity := 5

/-- The words for how much is shown; case does not matter. -/
def verbosity? (word : String) : Option Verbosity :=
  [("off", 0), ("error", 1), ("warn", 2), ("info", 3), ("debug", 4), ("trace", everything)].lookup word.toLower

structure Directive where
  /-- What a target must begin with. -/
  name : String
  verbosity : Verbosity
  deriving DecidableEq, Repr

abbrev Filter := List Directive

namespace Filter

/-- The directive for all targets. -/
def all (verbosity : Verbosity) : Filter :=
  [⟨"", verbosity⟩]

def trim (text : String) : String :=
  text.trimAscii.toString

/-- A directive from its text; where there is none, the text to blame. -/
def readDirective (text : String) : Except String Directive :=
  match text.splitOn "=" with
  | [word] =>
    match verbosity? word with
    | some verbosity => .ok ⟨"", verbosity⟩
    | none => .ok ⟨word, everything⟩
  | [name, level] =>
    let level := trim level
    if level.isEmpty then
      .ok ⟨name, everything⟩
    else
      match verbosity? level with
      | some verbosity => .ok ⟨name, verbosity⟩
      | none => .error level
  | _ => .error text

/-- A filter from its text, and a complaint about each part that is no directive. Without any directive only errors are
shown. -/
def read (text : String) : Filter × List String :=
  let parts := ((text.splitOn ",").map trim).filter (!·.isEmpty)
  let results := parts.map readDirective
  let directives := results.filterMap Except.toOption
  let complaints := results.filterMap fun
    | .ok _ => none
    | .error blame => some s!"warning: invalid logging spec '{blame}', ignoring it"
  (if directives.isEmpty then all Level.error.verbosity else directives, complaints)

/-- How much is shown of a target. Of two directives with one name the later counts. -/
def verbosity (f : Filter) (target : String) : Verbosity :=
  let decides (best : Directive) (d : Directive) : Directive :=
    if target.startsWith d.name && best.name.length ≤ d.name.length then d else best
  (f.foldl decides ⟨"", 0⟩).verbosity

/-- Whether an entry of this level is shown. -/
def shows (f : Filter) (target : String) (level : Level) : Bool :=
  level.verbosity ≤ f.verbosity target

end Filter

end PenRail.Log
