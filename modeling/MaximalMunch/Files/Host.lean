import MaximalMunch.Files.Tree
import MaximalMunch.Journal

/-!
# What programs run on

Programs use files, standard streams and environment variables only through a
host.  A session is a host that is a plain value: everything a program does to it
can be inspected afterwards.
-/

namespace MaximalMunch

/-- The services that programs use. -/
class Host (m : Type → Type) where
  readFile : String → m (Except FileError (List UInt8))
  writeFile : String → List UInt8 → m (Except FileError Unit)
  makeDirectory : String → m (Except FileError Unit)
  isDirectory : String → m Bool
  readInput : m (List UInt8)
  /-- The value of an environment variable. -/
  setting? : String → m (Option String)
  print : String → m Unit
  printError : String → m Unit
  note : Record → m Unit

structure Session where
  files : FileTree := FileTree.empty
  input : List UInt8 := []
  settings : List (String × String) := []
  output : String := ""
  errors : String := ""
  journal : Array Record := #[]

namespace Session

/-- Change the files of a session, if that succeeds. -/
def changeFiles (change : FileTree → Except FileError FileTree) :
    StateM Session (Except FileError Unit) := do
  match change (← get).files with
  | .error problem => return .error problem
  | .ok files =>
      modify fun session => { session with files := files }
      return .ok ()

instance : Host (StateM Session) where
  readFile path := return (← get).files.read path
  writeFile path content := changeFiles fun files => files.write path content
  makeDirectory path := changeFiles fun files => files.makeDirectory path
  isDirectory path := return (← get).files.isDirectory path
  readInput := return (← get).input
  setting? name := return (← get).settings.lookup name
  print text := modify fun session => { session with output := session.output ++ text }
  printError text := modify fun session => { session with errors := session.errors ++ text }
  note record := modify fun session => { session with journal := session.journal.push record }

end Session

namespace Host

variable {m : Type → Type} [Monad m] [Host m]

def printLine (line : String) : m Unit :=
  Host.print (line ++ "\n")

/-- Pass the records of a journaled computation on to the host. -/
def runJournal {α : Type} (computation : Journal α) : m α := do
  let (value, records) := computation.run #[]
  records.toList.forM Host.note
  return value

/-- Create a directory that may exist already. -/
def ensureDirectory (path : String) : m (Except FileError Unit) := do
  match ← Host.makeDirectory path with
  | .ok () => return .ok ()
  | .error problem =>
      if ← Host.isDirectory path then return .ok () else return .error problem

/-- Create a directory together with the directories on the way to it, of which
there are at most `depth`. -/
def makeDirectoriesWithin : Nat → String → m (Except FileError Unit)
  | 0, _ => return .ok ()
  | depth + 1, path => do
      if path.isEmpty then
        return .ok ()
      match ← Host.ensureDirectory (m := m) path with
      | .error .notFound =>
          match Path.parent? path with
          | none => return .error .notFound
          | some parent =>
              match ← makeDirectoriesWithin depth parent with
              | .error problem => return .error problem
              | .ok () => Host.ensureDirectory path
      | result => return result

/-- Create a directory together with the directories on the way to it. -/
def makeDirectories (path : String) : m (Except FileError Unit) :=
  makeDirectoriesWithin (path.length + 1) path

/-- Write a file, after the directories on the way to it have been created. -/
def provideFile (path : String) (content : List UInt8) : m (Except FileError Unit) := do
  match Path.parent? path with
  | none => Host.writeFile path content
  | some parent =>
      match ← Host.makeDirectories parent with
      | .error problem => return .error problem
      | .ok () => Host.writeFile path content

end Host

end MaximalMunch
