import PenRail.Toml.Value

/-!
# Growing a document

Statements come one by one and each adds to the tree, or contradicts what is already there. A table can be written out
under its header once; what a header or a dotted key merely passes through comes into being on the way and may still be
written out, or extended, in the way that it came about. Values, also tables in braces, are closed.
-/

namespace PenRail.Toml

/-- How a table came about. -/
inductive Origin
  /-- It was written out under its own header. -/
  | header
  /-- A header of one of its parts passed through it. -/
  | passed
  /-- A dotted key passed through it. -/
  | dotted
  deriving DecidableEq, Repr

/-- A document while it grows. -/
inductive Node
  | value (v : Value)
  | table (origin : Origin) (entries : List (String × Node))
  /-- Tables written one after the other under a doubled header. -/
  | tables (all : List (List (String × Node)))

abbrev Nodes := List (String × Node)

namespace Nodes

/-- Puts a node where the key is, or at the end. -/
def set (nodes : Nodes) (key : String) (node : Node) : Nodes :=
  match nodes with
  | [] => [(key, node)]
  | (k, old) :: rest => if k = key then (k, node) :: rest else (k, old) :: set rest key node

/-- Changes the last of several. -/
def changeLast {α : Type} (f : α → Option α) : List α → Option (List α)
  | [] => none
  | [a] => (f a).map ([·])
  | a :: b :: rest => (changeLast f (b :: rest)).map (a :: ·)

/-- Goes down the path of a header and changes the table at its end. What is missing on the way comes into being. -/
def underHeader (path : List String) (change : Nodes → Option Nodes) (nodes : Nodes) : Option Nodes :=
  match path with
  | [] => change nodes
  | key :: rest =>
    match nodes.lookup key with
    | none => do
      let below ← underHeader rest change []
      some (set nodes key (.table .passed below))
    | some (.value _) => none
    | some (.table origin below) => do
      let below ← underHeader rest change below
      some (set nodes key (.table origin below))
    | some (.tables all) => do
      let all ← changeLast (underHeader rest change) all
      some (set nodes key (.tables all))

/-- Adds an entry whose key is free. -/
def add (key : String) (v : Value) (nodes : Nodes) : Option Nodes :=
  match nodes.lookup key with
  | none => some (set nodes key (.value v))
  | some _ => none

/-- Adds the entry of a dotted key: the tables on its way must not have been written out, and the one that takes the entry
must have come about by dotted keys. -/
def addDotted (nodes : Nodes) : List String → String → Value → Option Nodes
  | [], key, v => add key v nodes
  | [step], key, v =>
    match nodes.lookup step with
    | none => some (set nodes step (.table .dotted [(key, .value v)]))
    | some (.table .dotted below) => do
      let below ← add key v below
      some (set nodes step (.table .dotted below))
    | some _ => none
  | step :: next :: rest, key, v =>
    match nodes.lookup step with
    | none => do
      let below ← addDotted [] (next :: rest) key v
      some (set nodes step (.table .dotted below))
    | some (.table origin below) => do
      if origin = .header then none
      let below ← addDotted below (next :: rest) key v
      some (set nodes step (.table origin below))
    | some (.tables all) => do
      let all ← changeLast (fun last => addDotted last (next :: rest) key v) all
      some (set nodes step (.tables all))
    | some (.value _) => none

/-- Opens the table of a header, which must not have been written out before. -/
def openTable (key : String) (nodes : Nodes) : Option Nodes :=
  match nodes.lookup key with
  | none => some (set nodes key (.table .header []))
  | some (.table .passed below) => some (set nodes key (.table .header below))
  | some _ => none

/-- Opens one more table of a doubled header. -/
def openNext (key : String) (nodes : Nodes) : Option Nodes :=
  match nodes.lookup key with
  | none => some (set nodes key (.tables [[]]))
  | some (.tables all) => some (set nodes key (.tables (all ++ [[]])))
  | some _ => none

end Nodes

mutual

/-- The value that a node has become. -/
def Node.toValue : Node → Value
  | .value v => v
  | .table _ entries => .table (entriesToValues entries)
  | .tables all => .array (tablesToValues all)

def entriesToValues : List (String × Node) → Entries
  | [] => []
  | (key, node) :: rest => (key, node.toValue) :: entriesToValues rest

def tablesToValues : List (List (String × Node)) → List Value
  | [] => []
  | entries :: rest => .table (entriesToValues entries) :: tablesToValues rest

end

end PenRail.Toml
