import MaximalMunch.Files.TableFile
import MaximalMunch.Format.Graph
import MaximalMunch.Program.Outcome

/-!
# The table program

Writes the table of the demonstration grammar to a file, and a drawing of it to
another one when an environment variable names it.
-/

namespace MaximalMunch

namespace Program.Tables

/-- Where the table goes when no argument names a file. -/
def defaultPath : String :=
  "tables/scanner_tables.json"

/-- A number that takes at least two columns. -/
def twoColumns (number : Nat) : String :=
  if number < 10 then s!" {number}" else s!"{number}"

def overview (table : Table) : List String :=
  s!"[gen_tables] states = {table.stateCount}, classes = {table.classCount}, kinds = {table.kindCount}, matrix = {table.stateCount * table.classCount} entries" ::
    table.kinds.map fun (kind, name) => s!"[gen_tables]   kind {twoColumns kind.toNat} = {name}"

variable {m : Type → Type} [Monad m] [MonadExceptOf Failure m] [Host m]

def writeDrawing (table : Table) (path : String) : m Unit := do
  let written ← Host.writeFile path (Text.utf8 (Graph.draw table))
  orFail s!"failed to create {path}" FileError.message written
  Host.printLine s!"[gen_tables] wrote {path}"

def execute (arguments : List String) : m Unit := do
  let path := arguments.head?.getD defaultPath
  if let some parent := Path.parent? path then
    let made ← Host.makeDirectories parent
    orFail s!"failed to create {parent}" FileError.message made
  Host.printLine "[gen_tables] building demo grammar table…"
  let table ← orFail "building demo grammar" Defect.message
    (← Host.runJournal DemoGrammar.tableLogged)
  (overview table).forM fun line => Host.printLine line
  let saved ← TableFile.save path table
  orFail s!"failed to write {path}" TableFileError.message saved
  Host.printLine s!"[gen_tables] wrote {path}"
  if let some drawing ← Host.setting? "SCAN_DOT" then
    writeDrawing table drawing

end Program.Tables

end MaximalMunch
