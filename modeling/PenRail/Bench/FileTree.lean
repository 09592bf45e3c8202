import PenRail.Config.Search

/-!
# A scripted directory

Files below the current directory of a machine that is otherwise bare: it has the usual directories and the null device.
A path is followed name by name, each step from a directory, from the root or from the current directory; above the root
is the root again. A path that is too long is not followed at all, wherever it would lead.
-/

namespace PenRail.Bench

inductive Node
  | file (bytes : ByteArray)
  | directory
  /-- Another name for a file or a directory. -/
  | link (place : List String)

/-- Files and directories by the names that lead to them from one top. A directory is there as soon as something is in
it. -/
abbrev FileTree := List (List String × Node)

namespace FileTree

/-- The names in a path. -/
def names (path : String) : List String :=
  path.splitOn "/"

/-- The tree with one more node. -/
def add (t : FileTree) (path : String) (node : Node) : FileTree :=
  ((names path).filter fun name => name != "" && name != ".", node) :: t

/-- What is at the end of these names. -/
def node? (t : FileTree) (at_ : List String) : Option Node :=
  match t.lookup at_ with
  | some node => some node
  | none => if at_.isEmpty || t.any (fun entry => at_.isPrefixOf entry.1) then some .directory else none

/-- Where a path leads from a place in the tree. -/
def walk (t : FileTree) (here : List String) : List String → Option (List String)
  | [] => some here
  | step :: rest =>
    match t.node? here with
    | some .directory =>
      if step = "" || step = "." then
        walk t here rest
      else if step = ".." then
        walk t here.dropLast rest
      else
        match t.node? (here ++ [step]) with
        | some (.link place) => walk t place rest
        | _ => walk t (here ++ [step]) rest
    | _ => none

/-- Where the current directory is. Nobody knows its own name: a name in a path has no slash, so none is this one. -/
def currentDirectory : List String := ["tmp", "/"]

/-- What there is besides the current directory. The null device reads as an empty file. -/
def bare : FileTree :=
  [(["dev", "null"], .file .empty), (["proc", "self", "cwd"], .link currentDirectory), (["proc", "self", "root"], .link [])] ++
    ["boot", "etc", "home", "media", "mnt", "opt", "root", "run", "srv", "sys", "usr/bin", "usr/lib", "usr/local", "usr/share",
      "var/lib", "var/log", "var/tmp"].map fun path => (names path, .directory)

/-- The whole machine, with this tree in the current directory. -/
def machine (t : FileTree) : FileTree :=
  t.map (fun (place, node) => (currentDirectory ++ place, node)) ++ (currentDirectory, .directory) :: bare

/-- How many bytes a path may have: with the zero that ends it they fill 4 KiB. -/
def longestPath : Nat := 4095

/-- The files that can be read with this tree in the current directory, by path. -/
def files (t : FileTree) : Config.Files := fun path =>
  if path.isEmpty || longestPath < path.utf8ByteSize then
    none
  else
    let start := if path.startsWith "/" then [] else currentDirectory
    match (t.machine.walk start (names path)).bind t.machine.node? with
    | some (.file bytes) => some bytes
    | _ => none

end FileTree

end PenRail.Bench
