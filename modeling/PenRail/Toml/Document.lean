import PenRail.Toml.DateTime
import PenRail.Toml.Number
import PenRail.Toml.Tree

/-!
# Reading a document

A document is a list of statements, one to a line: headers, which say which table is written to, and entries. Its tree
is what the statements have grown when the text ends. A text that is no document, and one whose statements contradict
each other, give no tree.
-/

namespace PenRail.Toml

open Reader

/-- The path to a key, and the key. -/
def splitKey : List String → Option (List String × String)
  | [] => none
  | [key] => some ([], key)
  | step :: rest => (splitKey rest).map fun (path, key) => (step :: path, key)

/-- A key, an equals sign and a value. -/
def entry (value : Reader Value) : Reader (List String × Value) := do
  let path ← key
  let _ ← char '='
  blanks
  let v ← value
  pure (path, v)

/-- Adds an entry to a table. -/
def addEntry (nodes : Nodes) (path : List String) (v : Value) : Option Nodes := do
  let (steps, key) ← splitKey path
  nodes.addDotted steps key v

/-- The table that entries in braces make. -/
def tableOf (entries : List (List String × Value)) : Option Value := do
  let nodes ← entries.foldlM (fun nodes (path, v) => addEntry nodes path v) []
  some (.table (entriesToValues nodes))

/-- What a reader found, if it is acceptable. -/
def accept {α β : Type} (f : α → Option β) (p : Reader α) : Reader β := do
  match f (← p) with
  | some b => pure b
  | none => failure

def boolean : Reader Bool :=
  (do literal ['t', 'r', 'u', 'e']; pure true) <|> (do literal ['f', 'a', 'l', 's', 'e']; pure false)

/-- Values in brackets, over as many lines as it takes; a comma may follow the last. -/
def items (value : Reader Value) : Reader (List Value) := do
  let _ ← char '['
  let all ← optional (do
    let all ← separated1 (do gap; let v ← value; gap; pure v) (char ',')
    let _ ← optional (char ',')
    pure all)
  gap
  let _ ← char ']'
  pure (all.getD [])

/-- Entries in braces, on one line. -/
def braced (value : Reader Value) : Reader Value := do
  let _ ← char '\x7b'
  let all ← optional (separated1 (do let e ← entry value; blanks; pure e) (char ','))
  blanks
  let v ← accept tableOf (pure (all.getD []))
  let _ ← char '\x7d'
  pure v

/-- A value with at most `depth` brackets and braces around any part of it. -/
def value : (depth : Nat) → Reader Value
  | 0 => scalar
  | depth + 1 => scalar <|> .array <$> items (value depth) <|> braced (value depth)
where
  scalar : Reader Value :=
    .string <$> string <|> .boolean <$> boolean <|> .dateTime <$> dateTime <|> .float <$> float <|> .integer <$> integer

inductive Statement
  /-- What follows goes into the table of this name. -/
  | header (path : List String)
  /-- What follows goes into one more table of this name. -/
  | nextHeader (path : List String)
  | entry (path : List String) (v : Value)

def headerLine : Reader Statement := do
  let _ ← char '['
  let path ← key
  let _ ← char ']'
  lineEnd
  pure (.header path)

def nextHeaderLine : Reader Statement := do
  literal ['[', '[']
  let path ← key
  literal [']', ']']
  lineEnd
  pure (.nextHeader path)

def entryLine : Reader Statement := do
  let (path, v) ← entry (value (depthLimit - 1))
  lineEnd
  pure (.entry path v)

/-- A line without a statement that is not the end of the text. -/
def emptyLine : Reader Unit :=
  (do let _ ← newline) <|> (do comment; (do let _ ← newline) <|> ended)

/-- All statements of a text. -/
def statements : Reader (List Statement) := do
  let _ ← optional (char '\ufeff')
  blanks
  let lines ← many (do
    let line ← (do emptyLine; pure none) <|> some <$> (nextHeaderLine <|> headerLine <|> entryLine)
    blanks
    pure line)
  ended
  pure (lines.filterMap id)

/-- The tree so far, and the table that entries go into. -/
structure Growth where
  root : Nodes := []
  current : List String := []

/-- The tree after one more statement. -/
def Growth.next (g : Growth) : Statement → Option Growth
  | .header path => do
    let (steps, key) ← splitKey path
    let root ← g.root.underHeader steps (Nodes.openTable key)
    some ⟨root, path⟩
  | .nextHeader path => do
    let (steps, key) ← splitKey path
    let root ← g.root.underHeader steps (Nodes.openNext key)
    some ⟨root, path⟩
  | .entry path v => do
    let root ← g.root.underHeader g.current fun nodes => addEntry nodes path v
    some { g with root }

/-- The tree of a text, if it is a document. -/
def parse (text : String) : Option Entries := do
  let (all, _) ← statements.run text.toList
  let grown ← all.foldlM Growth.next {}
  some (entriesToValues grown.root)

end PenRail.Toml
