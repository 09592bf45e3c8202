/-!
# Reading from the front of a text

A reader takes what it understands off the front of the text and leaves the rest, or fails and leaves everything.
Repetition ends where the reader fails or takes nothing, so every reader ends.
-/

namespace PenRail.Toml

abbrev Reader (α : Type) := StateT (List Char) Option α

namespace Reader

variable {α β : Type}

/-- One character of a class. -/
def one (ok : Char → Bool) : Reader Char := fun text =>
  match text with
  | c :: rest => if ok c then some (c, rest) else none
  | [] => none

def char (c : Char) : Reader Char :=
  one (· == c)

/-- All characters of a class up to the first that is not; there may be none. -/
def span (ok : Char → Bool) : Reader (List Char) := fun text =>
  some (text.takeWhile ok, text.dropWhile ok)

/-- As `span`, but at least one. -/
def span1 (ok : Char → Bool) : Reader (List Char) := do
  let c ← one ok
  let rest ← span ok
  pure (c :: rest)

/-- Exactly these characters. -/
def literal : List Char → Reader Unit
  | [] => pure ()
  | c :: rest => do
    let _ ← char c
    literal rest

/-- Exactly `n` characters of a class. -/
def count (n : Nat) (ok : Char → Bool) : Reader (List Char) :=
  (List.replicate n ()).mapM fun _ => one ok

/-- Nothing is left. -/
def ended : Reader Unit := fun text =>
  match text with
  | [] => some ((), [])
  | _ :: _ => none

/-- Succeeds where `p` would, and takes nothing. -/
def ahead (p : Reader α) : Reader Unit := fun text =>
  (p.run text).map fun _ => ((), text)

/-- Reads with `p` as long as it succeeds and takes something. -/
def manyFrom (p : Reader α) (text : List Char) : List α × List Char :=
  match p.run text with
  | none => ([], text)
  | some (a, rest) =>
    if _h : rest.length < text.length then
      let (more, rest) := manyFrom p rest
      (a :: more, rest)
    else
      ([], text)
termination_by text.length

def many (p : Reader α) : Reader (List α) := fun text =>
  some (manyFrom p text)

def many1 (p : Reader α) : Reader (List α) := do
  let a ← p
  let more ← many p
  pure (a :: more)

/-- One or more `p`, with `separator` in between. -/
def separated1 (p : Reader α) (separator : Reader β) : Reader (List α) := do
  let a ← p
  let more ← many (do let _ ← separator; p)
  pure (a :: more)

/-- `p`, and the characters that it took. -/
def taken (p : Reader α) : Reader (List Char) := fun text =>
  match p.run text with
  | none => none
  | some (_, rest) => some (text.take (text.length - rest.length), rest)

end Reader

end PenRail.Toml
