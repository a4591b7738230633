import LoxTokens.Text.Measure
import LoxTokens.Text.Pieces

/-!
# Files to read from

A workspace is the directory that a command runs in, with the files and
directories below it.  A path is followed from there component by component:
`.` and an empty component stay where they are, `..` goes up, and all of them
need a directory to stand in.  Above the workspace there are only directories
that hold nothing else.  Both a path as a whole and each of its components have
a length that they may not exceed.
-/

namespace LoxTokens.CommandLine

/-- Why a source cannot be read. -/
inductive ReadFailure where
  | notFound
  | isDirectory
  | notDirectory
  | nameTooLong
  | notUtf8
  /-- The system has a reason of its own. -/
  | other (reason : String)
  deriving DecidableEq

def ReadFailure.reason : ReadFailure → String
  | notFound => "No such file or directory (os error 2)"
  | isDirectory => "Is a directory (os error 21)"
  | notDirectory => "Not a directory (os error 20)"
  | nameTooLong => "File name too long (os error 36)"
  | notUtf8 => "stream did not contain valid UTF-8"
  | other reason => reason

inductive Node where
  | file (contents : ByteArray)
  | directory

abbrev Path := List (List Char)

/-- The entries of a working directory, the latest first, each under its
components from the inside out. -/
abbrev Workspace := List (Path × Node)

namespace Workspace

/-- A directory that a path may stand in. -/
inductive Place where
  /-- The directory or file with these components, from the inside out. -/
  | inside (path : Path)
  /-- A directory above the workspace, or beside it. -/
  | outside

/-- One step along a path, from a directory. -/
def Place.follow (place : Place) (component : List Char) : Option Place :=
  if component.isEmpty ∨ component = ['.'] then some place
  else if component = ['.', '.'] then
    match place with
    | .inside (_ :: path) => some (.inside path)
    | _ => some .outside
  else
    match place with
    | .inside path => some (.inside (component :: path))
    | .outside => none

/-- What is found at a place.  A directory need not be an entry of its own if
there is anything in it. -/
def nodeAt? (workspace : Workspace) : Place → Option Node
  | .outside => some .directory
  | .inside [] => some .directory
  | .inside path =>
    match workspace.find? fun (entry, _) => entry = path with
    | some (_, node) => some node
    | none =>
      if workspace.any fun (entry, _) => path.isSuffixOf entry then some .directory else none

def longestPath : Nat := 4095

def longestComponent : Nat := 255

/-- What a path leads to from a place. -/
def walk (workspace : Workspace) (place : Place) : Path → Except ReadFailure ByteArray
  | [] =>
    match workspace.nodeAt? place with
    | none => .error .notFound
    | some .directory => .error .isDirectory
    | some (.file contents) => .ok contents
  | component :: path =>
    match workspace.nodeAt? place with
    | none => .error .notFound
    | some (.file _) => .error .notDirectory
    | some .directory =>
      -- only in a directory does it matter how long a component is
      if longestComponent < Text.bytes component then .error .nameTooLong
      else
        match place.follow component with
        | none => .error .notFound
        | some place => workspace.walk place path

/-- The contents of the file with this name. -/
def read (workspace : Workspace) (name : List Char) : Except ReadFailure ByteArray :=
  if longestPath < Text.bytes name then .error .nameTooLong
  else
    match name with
    | [] => .error .notFound
    | '/' :: path => workspace.walk .outside (Text.pieces '/' path)
    | path => workspace.walk (.inside []) (Text.pieces '/' path)

/-- The place that a path leads to from the working directory, whatever is
there. -/
def place? (path : Path) : Option Place :=
  path.foldlM Place.follow (.inside [])

/-- Adds a file or a directory, in place of what had the name before. -/
def add (workspace : Workspace) (name : List Char) (node : Node) : Workspace :=
  match place? (Text.pieces '/' name) with
  | some (.inside path) => (path, node) :: workspace
  | _ => workspace

end Workspace

end LoxTokens.CommandLine
