import MaximalMunch.Table.Defect
import MaximalMunch.Text.Quoted

/-!
# Messages about defects

The wording of every defect.
-/

namespace MaximalMunch

/-- What is wrong, in one sentence. -/
def Defect.message : Defect → String
  | .noStates => "table has no states"
  | .noClasses => "table has no character classes"
  | .tooManyClasses classes =>
      s!"{classes} character classes exceed the u16 class id space"
  | .initialOutOfRange state stateCount =>
      s!"initial state {state} is out of range (states = {stateCount})"
  | .errorOutOfRange state stateCount =>
      s!"error state {state} is out of range (states = {stateCount})"
  | .errorStateAccepting state kind =>
      s!"error state {state} is accepting kind {kind}"
  | .transitionShape expected found =>
      s!"transition matrix has {found} entries, expected {expected}"
  | .tokenMapShape expected found =>
      s!"token map has {found} entries, expected {expected}"
  | .targetOutOfRange state cls target =>
      s!"transition from state {state} on class {cls} targets missing state {target}"
  | .classOutOfRange cls classCount =>
      s!"character class {cls} is out of range (classes = {classCount})"
  | .badClassRange index =>
      s!"class range #{index} is empty, unsorted, overlapping, or inside ASCII"
  | .unknownKind state kind kindCount =>
      s!"state {state} accepts unknown token kind {kind} (kinds = {kindCount})"
  | .duplicateKindName name =>
      s!"token kind name {Text.quoteString name} is reserved or defined twice"
  | .badKindName index => s!"token kind name #{index} is not valid UTF-8"
  | .unknownState state => s!"state {state} does not exist in this builder"
  | .emptyCharRange lo hi =>
      s!"char range {Text.quoteChar lo}..={Text.quoteChar hi} is empty"
  | .badMagic => "bad magic in table file"
  | .truncated place => s!"table file truncated while reading {place.label}"

end MaximalMunch
