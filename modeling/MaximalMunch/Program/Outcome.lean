import MaximalMunch.Files.Host

/-!
# How programs end

A program either succeeds or fails with a context and, possibly, the cause that
lies beneath.  A failure is reported on the error stream and makes the exit code
one; what was printed before stays.
-/

namespace MaximalMunch

structure Failure where
  /-- What the program was about to do. -/
  context : String
  cause : Option String
  deriving DecidableEq, Repr

namespace Failure

def report (failure : Failure) : String :=
  match failure.cause with
  | none => s!"Error: {failure.context}\n"
  | some cause => s!"Error: {failure.context}\n\nCaused by:\n    {cause}\n"

end Failure

/-- A program that may fail uses the same host. -/
instance {m : Type → Type} [Monad m] [Host m] : Host (ExceptT Failure m) where
  readFile path := ExceptT.lift (Host.readFile path)
  writeFile path content := ExceptT.lift (Host.writeFile path content)
  makeDirectory path := ExceptT.lift (Host.makeDirectory path)
  isDirectory path := ExceptT.lift (Host.isDirectory path)
  readInput := ExceptT.lift Host.readInput
  setting? name := ExceptT.lift (Host.setting? name)
  print text := ExceptT.lift (Host.print text)
  printError text := ExceptT.lift (Host.printError text)
  note record := ExceptT.lift (Host.note record)

namespace Program

variable {m : Type → Type} [Monad m]

/-- Run a program to its exit code. -/
def run [Host m] (program : ExceptT Failure m Unit) : m UInt32 := do
  match ← program.run with
  | .ok () => return 0
  | .error failure =>
      Host.printError failure.report
      return 1

/-- Go on with the value of a result, or fail in the given context. -/
def orFail [MonadExceptOf Failure m] {ε α : Type} (context : String)
    (message : ε → String) (result : Except ε α) : m α :=
  match result with
  | .ok value => return value
  | .error problem => throw (Failure.mk context (some (message problem)))

/-- The cause of failure when bytes were meant to be text. -/
def notText : String :=
  "stream did not contain valid UTF-8"

end Program

end MaximalMunch
