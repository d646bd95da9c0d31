import MaximalMunch.Builder.Compile
import MaximalMunch.DemoGrammar

/-!
# Journals

Some operations tell an observer what they did.  The operations themselves stay
silent: a journaled computation wraps one of them and adds its records, in the
order of the events.
-/

namespace MaximalMunch

inductive Level
  | trace
  | debug
  | warn
  | error
  deriving DecidableEq, Repr

structure Record where
  level : Level
  message : String
  deriving DecidableEq, Repr

/-- A computation that keeps a journal. -/
abbrev Journal := StateM (Array Record)

namespace Journal

def note (level : Level) (message : String) : Journal Unit :=
  modify fun records => records.push ⟨level, message⟩

end Journal

/-- `Table.ofParts`, which reports the table it made. -/
def Table.ofPartsLogged (parts : Parts) : Journal (Except Defect Table) := do
  let result := Table.ofParts parts
  if result.isOk then
    Journal.note .debug
      s!"[tables] automaton ready: {parts.stateCount} states, {parts.classCount} classes, {parts.kindNames.size} kinds"
  return result

/-- `Builder.build`, which reports how many classes the description needs. -/
def Builder.buildLogged (builder : Builder) : Journal (Except Defect Table) := do
  match builder.compile with
  | .error defect => return .error defect
  | .ok parts =>
      Journal.note .debug
        s!"[tables] built {parts.stateCount} states, {builder.cuts.length} cuts -> {parts.classCount} classes"
      Table.ofPartsLogged parts

/-- `DemoGrammar.table` with the records of its construction. -/
def DemoGrammar.tableLogged : Journal (Except Defect Table) :=
  match DemoGrammar.builder with
  | .error defect => return .error defect
  | .ok builder => builder.buildLogged

end MaximalMunch
