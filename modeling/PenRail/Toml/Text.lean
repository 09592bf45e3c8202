import PenRail.Toml.Reader

/-!
# Blanks, comments and strings

Outside of strings only spaces and tabs are blank. Control characters other than the tab are refused everywhere, in
comments and strings too; a carriage return is accepted only as part of a line end.
-/

namespace PenRail.Toml

open Reader

def isBlank (c : Char) : Bool :=
  c == ' ' || c == '\t'

/-- What a comment or a string may hold unescaped: a tab, printable ASCII, and everything past ASCII. -/
def isPlain (c : Char) : Bool :=
  c == '\t' || (0x20 ≤ c.toNat && c.toNat ≠ 0x7f)

def isHexDigit (c : Char) : Bool :=
  c.isDigit || ('a' ≤ c && c ≤ 'f') || ('A' ≤ c && c ≤ 'F')

/-- The value of a digit in a base of at most 16. -/
def digitValue (c : Char) : Nat :=
  if c.isDigit then c.toNat - '0'.toNat
  else if 'a' ≤ c && c ≤ 'f' then c.toNat - 'a'.toNat + 10
  else c.toNat - 'A'.toNat + 10

/-- The number that digits denote. -/
def ofDigits (base : Nat) (digits : List Char) : Nat :=
  digits.foldl (fun n c => n * base + digitValue c) 0

def blanks : Reader Unit := do
  let _ ← span isBlank

def newline : Reader Char :=
  char '\n' <|> (do literal ['\r', '\n']; pure '\n')

def comment : Reader Unit := do
  let _ ← char '#'
  let _ ← span isPlain

/-- What may follow a statement on its line. -/
def lineEnd : Reader Unit := do
  blanks
  let _ ← optional comment
  (do let _ ← newline) <|> ended

/-- Blanks, comments and line ends, as many as there are. -/
def gap : Reader Unit := do
  blanks
  let _ ← many (do
    let _ ← optional comment
    let _ ← newline
    blanks)

/-- The character with a code, where there is one. -/
def scalar? (code : Nat) : Option Char :=
  if h : code.isValidChar then some (Char.ofNatAux code h) else none

/-- A character given by `digits` hexadecimal digits. -/
def codePoint (digits : Nat) : Reader Char := do
  let code ← count digits isHexDigit
  match scalar? (ofDigits 16 code) with
  | some c => pure c
  | none => failure

/-- The character that an escape sequence stands for. -/
def escape : Reader Char := do
  let _ ← char '\\'
  match ← one fun _ => true with
  | 'b' => pure '\x08'
  | 't' => pure '\t'
  | 'n' => pure '\n'
  | 'f' => pure '\x0c'
  | 'r' => pure '\r'
  | '"' => pure '"'
  | '\\' => pure '\\'
  | 'u' => codePoint 4
  | 'U' => codePoint 8
  | _ => failure

def isBasic (c : Char) : Bool :=
  isPlain c && c != '"' && c != '\\'

def isLiteral (c : Char) : Bool :=
  isPlain c && c != '\''

/-- A string in double quotes, on one line. -/
def basicString : Reader String := do
  let _ ← char '"'
  let parts ← many (span1 isBasic <|> ([·]) <$> escape)
  let _ ← char '"'
  pure (String.ofList parts.flatten)

/-- A string in single quotes, on one line and without escapes. -/
def literalString : Reader String := do
  let _ ← char '\''
  let body ← span isLiteral
  let _ ← char '\''
  pure (String.ofList body)

/-- One or two quotes that do not yet close a string: `after` must come next. -/
def looseQuotes {α : Type} (quote : Char) (after : Reader α) : Reader (List Char) :=
  (do literal [quote, quote]; ahead after; pure [quote, quote]) <|>
    (do let _ ← char quote; ahead after; pure [quote])

/-- A backslash at the end of a line: it takes away the line end and all blank space after it. -/
def joinedLines : Reader (List Char) := do
  let _ ← many1 (do
    let _ ← char '\\'
    blanks
    let _ ← many1 (do
      let _ ← newline
      blanks))
  pure []

/-- A string in three quotes, over several lines: runs of `content`, and quotes in between that are not yet the closing
three. A line end right after the opening is not part of it. -/
def blockString (quote : Char) (content : Reader (List Char)) : Reader String := do
  let closing := literal [quote, quote, quote]
  closing
  let _ ← optional newline
  let first ← many content
  let middle ← many (do
    let quotes ← looseQuotes quote (one (· != quote))
    let more ← many1 content
    pure (quotes ++ more.flatten))
  let last ← optional (looseQuotes quote closing)
  closing
  pure (String.ofList (first.flatten ++ middle.flatten ++ last.getD []))

def basicBlock : Reader String :=
  blockString '"' (span1 isBasic <|> joinedLines <|> ([·]) <$> escape <|> ([·]) <$> newline)

def literalBlock : Reader String :=
  blockString '\'' (span1 isLiteral <|> ([·]) <$> newline)

def string : Reader String :=
  basicBlock <|> basicString <|> literalBlock <|> literalString

def isBareKey (c : Char) : Bool :=
  c.isAlphanum || c == '-' || c == '_'

/-- One part of a key: bare, or a string on one line. -/
def simpleKey : Reader String :=
  basicString <|> literalString <|> String.ofList <$> span1 isBareKey

/-- How deep keys and values may nest. -/
def depthLimit : Nat := 80

/-- A key of one part or of several with dots in between. -/
def key : Reader (List String) := do
  let parts ← separated1 (do blanks; let part ← simpleKey; blanks; pure part) (char '.')
  if parts.length < depthLimit then pure parts else failure

end PenRail.Toml
