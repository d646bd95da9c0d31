import MaximalMunch.Files.Path

/-!
# File trees

A file tree holds files and directories under names, and knows which directory
is the current one.  Path names are resolved component by component: all but the
last must be directories that exist.  Names and path names have a largest length
in bytes, and none of them contains the null character.
-/

namespace MaximalMunch

/-- A reason why a file cannot be used. -/
inductive FileError
  | notFound
  | alreadyExists
  | notDirectory
  | isDirectory
  /-- A path name, or one of the names in it, has too many bytes. -/
  | nameTooLong
  /-- A path name contains the null character. -/
  | nullInName
  /-- Any other problem, in the words of the operating system. -/
  | other (description : String)
  deriving DecidableEq, Repr

def FileError.message : FileError → String
  | .notFound => "No such file or directory (os error 2)"
  | .alreadyExists => "File exists (os error 17)"
  | .notDirectory => "Not a directory (os error 20)"
  | .isDirectory => "Is a directory (os error 21)"
  | .nameTooLong => "File name too long (os error 36)"
  | .nullInName => "file name contained an unexpected NUL byte"
  | .other description => description

inductive FileNode
  | file (content : List UInt8)
  | directory
  deriving DecidableEq, Repr

/-- Files and directories under their locations.  A location lists the names
from the root on; the root itself is always there. -/
structure FileTree where
  nodes : List (List String × FileNode)
  current : List String

namespace FileTree

/-- A tree whose current directory is empty. -/
def empty : FileTree where
  nodes := [(["work"], .directory)]
  current := ["work"]

def node? (tree : FileTree) (location : List String) : Option FileNode :=
  if location.isEmpty then some .directory
  else (tree.nodes.find? fun entry => entry.1 == location).map Prod.snd

/-- Put something at a location, in place of what is there. -/
def put (tree : FileTree) (location : List String) (node : FileNode) : FileTree :=
  { tree with
    nodes := (tree.nodes.filter fun entry => entry.1 != location) ++ [(location, node)] }

abbrev maxNameLength : Nat := 255

abbrev maxPathLength : Nat := 4095

/-- What the directory at a location holds under a name. -/
def lookup (tree : FileTree) (location : List String) (name : String) :
    Except FileError (Option FileNode) :=
  if maxNameLength < name.utf8ByteSize then
    .error .nameTooLong
  else
    .ok (tree.node? (location ++ [name]))

/-- Go from a directory to a neighbouring one. -/
def enter (tree : FileTree) (location : List String) (name : String) :
    Except FileError (List String) :=
  if name = "." then
    .ok location
  else if name = ".." then
    .ok location.dropLast
  else
    match tree.lookup location name with
    | .error problem => .error problem
    | .ok none => .error .notFound
    | .ok (some (.file _)) => .error .notDirectory
    | .ok (some .directory) => .ok (location ++ [name])

/-- Where a path name leads to. -/
structure Target where
  /-- The directory in which the last component is looked up. -/
  location : List String
  /-- The last component, unless the path ends in a dot component or at the
  root. -/
  name : Option String
  /-- Whether a slash follows the last component. -/
  slashed : Bool

/-- Resolve all of a path name but its last component. -/
def resolve (tree : FileTree) (path : String) : Except FileError Target := do
  if path.contains '\x00' then
    throw .nullInName
  if maxPathLength < path.utf8ByteSize then
    throw .nameTooLong
  if path.isEmpty then
    throw .notFound
  let names := (Path.pieces path).filter fun piece => !piece.isEmpty
  let names := names.map String.ofList
  let root := if Path.isAbsolute path then [] else tree.current
  let slashed := path.toList.getLast? == some '/'
  let location ← names.dropLast.foldlM tree.enter root
  match names.getLast? with
  | none => return ⟨location, none, slashed⟩
  | some last =>
      if last = "." ∨ last = ".." then
        return ⟨← tree.enter location last, none, slashed⟩
      else
        return ⟨location, some last, slashed⟩

def read (tree : FileTree) (path : String) : Except FileError (List UInt8) := do
  let target ← tree.resolve path
  match target.name with
  | none => throw .isDirectory
  | some name =>
      match ← tree.lookup target.location name with
      | none => throw .notFound
      | some .directory => throw .isDirectory
      | some (.file content) => if target.slashed then throw .notDirectory else return content

/-- Write a file, which is created or replaced. -/
def write (tree : FileTree) (path : String) (content : List UInt8) :
    Except FileError FileTree := do
  let target ← tree.resolve path
  match target.name with
  | none => throw .isDirectory
  | some name =>
      if target.slashed then
        throw .isDirectory
      if (← tree.lookup target.location name) = some .directory then
        throw .isDirectory
      return tree.put (target.location ++ [name]) (.file content)

def isDirectory (tree : FileTree) (path : String) : Bool :=
  match tree.resolve path with
  | .error _ => false
  | .ok target =>
      match target.name with
      | none => true
      | some name =>
          match tree.lookup target.location name with
          | .ok (some .directory) => true
          | _ => false

def makeDirectory (tree : FileTree) (path : String) : Except FileError FileTree := do
  let target ← tree.resolve path
  match target.name with
  | none => throw .alreadyExists
  | some name =>
      if (← tree.lookup target.location name).isSome then
        throw .alreadyExists
      return tree.put (target.location ++ [name]) .directory

/-- All files below the current directory, with their relative paths. -/
def files (tree : FileTree) : List (String × List UInt8) :=
  tree.nodes.filterMap fun (location, node) =>
    match node with
    | .directory => none
    | .file content =>
        if tree.current.isPrefixOf location then
          some (String.intercalate "/" (location.drop tree.current.length), content)
        else
          none

/-- The files that are new or have changed since `earlier`. -/
def changesSince (tree earlier : FileTree) : List (String × List UInt8) :=
  tree.files.filter fun file => !earlier.files.contains file

end FileTree

end MaximalMunch
