import MaximalMunch.Program.Fuzz
import MaximalMunch.Program.Scan
import MaximalMunch.Program.Tables

/-!
# The command line

The first argument names the program to run, and the others are its arguments.
-/

namespace MaximalMunch

/-- The problem behind an error of the operating system. -/
def FileError.ofSystem : IO.Error → FileError
  | .noFileOrDirectory .. => .notFound
  | .alreadyExists .. => .alreadyExists
  | .inappropriateType _ code _ => if code = 21 then .isDirectory else .notDirectory
  | .invalidArgument _ 36 _ => .nameTooLong
  | problem => .other (toString problem)

/-- Run an action on files and catch its error. -/
def attempt {α : Type} (action : IO α) : IO (Except FileError α) := do
  try
    return .ok (← action)
  catch problem =>
    return .error (.ofSystem problem)

instance : Host IO where
  readFile path := attempt do return (← IO.FS.readBinFile path).data.toList
  writeFile path content := attempt (IO.FS.writeBinFile path ⟨content.toArray⟩)
  makeDirectory path := attempt (IO.FS.createDir path)
  isDirectory path := do
    match ← attempt (IO.FS.readBinFile path) with
    | .error .isDirectory => return true
    | _ => return false
  readInput := do return (← (← IO.getStdin).readBinToEnd).data.toList
  setting? name := IO.getEnv name
  print text := IO.print text
  printError text := IO.eprint text
  note _ := return ()

end MaximalMunch

def main (arguments : List String) : IO UInt32 :=
  match arguments with
  | "scan" :: rest => MaximalMunch.Program.run (MaximalMunch.Program.Scan.execute rest)
  | "tables" :: rest => MaximalMunch.Program.run (MaximalMunch.Program.Tables.execute rest)
  | "fuzz" :: _ => MaximalMunch.Program.run MaximalMunch.Program.Fuzz.execute
  | _ => do
      IO.eprintln "usage: (scan | tables | fuzz) [arguments]"
      return 2
