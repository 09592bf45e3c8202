/-!
# Text that cannot drive a terminal

Text from outside may hold control characters and escape sequences. `plain` leaves them out: of the control characters
only blanks remain, and of a sequence nothing does, whether it is a short escape, a control sequence with its parameters,
or a string for the terminal that runs until it is ended.

A blank may stand inside a control sequence. It is shown, and so is what follows, until something comes that is not
shown; from there the sequence goes on. A string for a device begins with a header: parameters, then intermediate
characters, then one character that says what the string is for. A header that is out of order makes the rest a string
like any other.
-/

namespace PenRail.Text.Terminal

/-- What the terminal is in the middle of. -/
inductive State
  | ground
  /-- After the escape character. -/
  | escape
  /-- After the escape character and a character that wants another one. -/
  | intermediate
  /-- In the parameters of a control sequence. -/
  | control
  /-- In a string that a bell ends too. -/
  | command
  /-- At the start of a string for a device. -/
  | device
  /-- In the parameters of a string for a device. -/
  | deviceParameters
  /-- In the intermediate characters of a string for a device. -/
  | deviceIntermediate
  /-- In a string whose end is the only thing that counts. -/
  | string
  deriving DecidableEq, Repr

/-- The control characters that are blanks. -/
def isBlankControl (c : Char) : Bool :=
  c == '\t' || c == '\n' || c == '\x0c' || c == '\r'

/-- The characters of a header: what they are there for. -/
inductive Role
  | intermediate
  /-- A digit or what separates parameters. -/
  | parameter
  /-- What may stand in front of the parameters. -/
  | leading
  | final
  deriving DecidableEq, Repr

/-- What a character is in a header; controls and characters outside ASCII are nothing there. -/
def Role.of? (c : Char) : Option Role :=
  if c < ' ' || '\x7f' ≤ c then none
  else if c < '0' then some .intermediate
  else if c < '<' then some .parameter
  else if c < '@' then some .leading
  else some .final

/-- Whether the encoding of a character has the byte that ends a string. -/
def hasTerminator (c : Char) : Bool :=
  (String.singleton c).toUTF8.toList.contains 0x9c

/-- What the terminal is in after one more character. -/
def State.next (s : State) (c : Char) : State :=
  if c = '\x1b' then .escape
  else if c = '\x18' || c = '\x1a' then .ground
  else
    let isControl := c < ' ' || c = '\x7f'
    let isFinal := '@' ≤ c && c < '\x7f'
    match s with
    | .ground => .ground
    | .escape =>
      if isControl || '\x7f' < c then .escape
      else if c < '0' then .intermediate
      else
        match c with
        | '[' => .control
        | ']' => .command
        | 'P' => .device
        | 'X' | '^' | '_' => .string
        | _ => .ground
    | .intermediate => if '0' ≤ c && c < '\x7f' then .ground else .intermediate
    | .control => if isFinal then .ground else .control
    | .command => if c = '\x07' then .ground else .command
    | .device =>
      match Role.of? c with
      | some .intermediate => .deviceIntermediate
      | some .parameter | some .leading => .deviceParameters
      | some .final => .string
      | none => .device
    | .deviceParameters =>
      match Role.of? c with
      | some .intermediate => .deviceIntermediate
      | some .parameter => .deviceParameters
      | some .leading | some .final => .string
      | none => .deviceParameters
    | .deviceIntermediate =>
      match Role.of? c with
      | some .intermediate => .deviceIntermediate
      | some .parameter | some .leading | some .final => .string
      | none => .deviceIntermediate
    | .string => if hasTerminator c then .ground else .string

/-- Whether a character is shown there. -/
def State.shows (s : State) (c : Char) : Bool :=
  match s with
  | .ground => isBlankControl c || (' ' ≤ c && c != '\x7f')
  | .escape | .intermediate | .control => isBlankControl c
  | .command | .device | .deviceParameters | .deviceIntermediate | .string => false

/-- A terminal: what it is in the middle of, and whether the last character was shown. -/
structure Progress where
  state : State := .ground
  showing : Bool := false
  deriving DecidableEq, Repr

/-- The terminal after one more character. -/
def Progress.next (p : Progress) (c : Char) : Progress :=
  if p.showing && State.ground.shows c then
    ⟨if c ≤ '\x7f' then p.state else .ground, true⟩
  else
    ⟨p.state.next c, p.state.shows c⟩

/-- What remains of the characters. -/
def plainFrom (p : Progress) : List Char → List Char
  | [] => []
  | c :: rest => if (p.next c).showing then c :: plainFrom (p.next c) rest else plainFrom (p.next c) rest

/-- The text without what would drive a terminal. -/
def plain (text : String) : String :=
  String.ofList (plainFrom {} text.toList)

example : plainFrom {} "a\x1b[31mb\x07c\x1b]0;t\x07d\x0b\te".toList = "abcd\te".toList := by decide +kernel

example : plainFrom {} "a\x1bP1;2 qb\u009cc\x1bP1 2\u009cd\x1bP1 \u009cqe".toList = "acd".toList := by decide +kernel

end PenRail.Text.Terminal
