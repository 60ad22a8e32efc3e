import Normative.FileFault
import Normative.Location

/-!
# Working directories

The files that a run reads and writes, as a value. The working directory, the directories above it
and the root of the file system exist; beyond them only what is listed is known to exist.

## Main definitions

* `Workspace` : the files and directories that are known.
* `Workspace.locate` : the place to which a path leads.
* `Workspace.readText`, `Workspace.write` : reading and writing of files.
-/

namespace Normative

/-- What a place holds. -/
inductive Node where
  | file (content : ByteArray)
  | directory
  /-- A file that is always empty: it takes what is written to it and keeps nothing. -/
  | sink

/-- The files and directories that are known, each with its place. -/
structure Workspace where
  nodes : List (Location × Node)

namespace Workspace

/-- What every system has, wherever the working directory lies. -/
def standardNodes : List (Location × Node) :=
  [(⟨.root, ["dev", "null"]⟩, .sink), (⟨.root, ["tmp"]⟩, .directory)]

/-- The working directory with files and directories at the ends of paths. Of two at one place the
later one counts. -/
def ofList (entries : List (String × Node)) : Workspace :=
  ⟨(entries.map (fun e ↦ (Path.location e.1, e.2))).reverse ++ standardNodes⟩

/-- What a place holds. Every anchor is a directory, and so is what lies on the way to something
that exists. -/
def node? (workspace : Workspace) (location : Location) : Option Node :=
  match workspace.nodes.lookup location with
  | some node => some node
  | none =>
    if location.names.isEmpty || workspace.nodes.any (fun n ↦ n.1.isWithin location) then
      some .directory
    else none

/-- The greatest number of bytes in a name. -/
def nameLimit : Nat := 255

/-- The greatest number of bytes in a path. -/
def pathLimit : Nat := 4095

/-- Look at what a place holds. This is where a name that is too long is noticed: a place that is
only named, and not looked at, may have any name. -/
def look (workspace : Workspace) (location : Location) : Except FileFault (Option Node) :=
  if location.names.getLast?.any (fun name ↦ nameLimit < name.utf8ByteSize) then
    .error .nameTooLong
  else .ok (workspace.node? location)

/-- Follow names from a place; every place that is left on the way has to be a directory. The place
at the end is not looked at. -/
def follow (workspace : Workspace) : Location → List String → Except FileFault Location
  | location, [] => .ok location
  | location, name :: names =>
    match workspace.look location with
    | .error fault => .error fault
    | .ok none => .error .missing
    | .ok (some .directory) => workspace.follow (location.descend name) names
    | .ok (some _) => .error .notADirectory

/-- The place to which a path leads, which may hold nothing yet. -/
def locate (workspace : Workspace) (path : String) : Except FileFault Location :=
  if path.toList.contains '\x00' then .error .nulInPath
  else if path.isEmpty then .error .missing
  else if pathLimit < path.utf8ByteSize then .error .nameTooLong
  else workspace.follow (Path.start path) (Path.names path)

/-- What a path leads to. -/
def find (workspace : Workspace) (path : String) : Except FileFault Node := do
  match ← workspace.look (← workspace.locate path) with
  | none => .error .missing
  | some .directory => return .directory
  | some node => if Path.endsInSlash path then .error .notADirectory else return node

/-- Whether a path leads to something. -/
def exists? (workspace : Workspace) (path : String) : Bool :=
  match workspace.find path with
  | .ok _ => true
  | .error _ => false

/-- Read a file as text. -/
def readText (workspace : Workspace) (path : String) : Except FileFault String := do
  match ← workspace.find path with
  | .directory => .error .isADirectory
  | .sink => return ""
  | .file content =>
    match String.fromUTF8? content with
    | some text => return text
    | none => .error .notText

/-- The working directory with a file at a place. -/
def put (workspace : Workspace) (location : Location) (content : ByteArray) : Workspace :=
  ⟨(location, .file content) :: workspace.nodes.filter (fun n ↦ n.1 != location)⟩

/-- Write a text to a file, which is created if its directory exists. A path that ends in a slash
names a directory, whatever is there, and so it is refused before that place is looked at. -/
def write (workspace : Workspace) (path text : String) : Except FileFault Workspace := do
  let location ← workspace.locate path
  if Path.endsInSlash path then .error .isADirectory
  else
    match ← workspace.look location with
    | some .directory => .error .isADirectory
    | some .sink => return workspace
    | _ => return workspace.put location text.toUTF8

end Workspace

end Normative
