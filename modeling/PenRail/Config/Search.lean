import PenRail.Config.Sections
import PenRail.Log

/-!
# Looking for a configuration file

Candidates are tried in order and the first that can be used settles the matter: those after it are not looked at. A
candidate that is not there, is no file or no text is passed over in silence; text that is no configuration is reported
and passed over.
-/

namespace PenRail.Config

/-- The bytes of the file at a path; nothing where there is no file to read. -/
abbrev Files := String → Option ByteArray

/-- The text of the file at a path. -/
def textAt (files : Files) (path : String) : Option String :=
  (files path).bind String.fromUTF8?

/-- A name below a directory. -/
def below (directory name : String) : String :=
  if directory.isEmpty || directory.toList.getLast? == some '/' then directory ++ name else directory ++ "/" ++ name

def fileName : String := "rm-periph.toml"

/-- Where a file is looked for: at the path that was named, in the current directory, in the home directory. -/
def candidates (named home : Option String) : List String :=
  named.toList ++ [fileName] ++ (home.map fun h => below (below h ".config") fileName).toList

/-- What came of one candidate. -/
inductive Tried
  | nothing
  | refused
  | loaded (settings : Settings)
  deriving DecidableEq, Repr

def attempt (files : Files) (path : String) : Tried :=
  match textAt files path with
  | none => .nothing
  | some text =>
    match Settings.ofText text with
    | none => .refused
    | some settings => .loaded settings

/-- The settings of the first candidate that has any, and what is said on the way to it. -/
def search (files : Files) : List String → Option Settings × List Log.Entry
  | [] => (none, [])
  | path :: rest =>
    match attempt files path with
    | .nothing => search files rest
    | .refused =>
      let (found, entries) := search files rest
      (found, ⟨.warn, "Failed to parse " ++ path⟩ :: entries)
    | .loaded settings => (some settings, [⟨.debug, "Loaded config from " ++ path⟩])

end PenRail.Config
