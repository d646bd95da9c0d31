import MaximalMunch.Builder.Basic
import Std.Data.ExtTreeSet

/-!
# From a description to a table

The code points are cut wherever an edge begins or ends.  Between two cuts no
edge can tell code points apart, so one sample decides for the whole interval:
its column lists the target of every state.  Equal columns become one
character class.  Class `0` is the column of a code point that no edge covers;
the other classes are numbered in the order in which their columns first occur
among the intervals.
-/

namespace MaximalMunch

namespace Builder

variable (builder : Builder)

def edgeDefect? (stateCount : Nat) (edge : Edge) : Option Defect :=
  if edge.hi < edge.lo then some (.emptyCharRange edge.lo edge.hi)
  else if stateCount ≤ edge.target.toNat then some (.unknownState edge.target)
  else none

def rulesDefect? (stateCount : Nat) (rules : StateRules) : Option Defect :=
  (rules.edges.toList.findSome? (edgeDefect? stateCount)).or
    ((rules.fallback.filter fun target => stateCount ≤ target.toNat).map .unknownState)

def defect? : Option Defect :=
  (builder.dangling.map .unknownState).or
    (builder.states.toList.findSome? (rulesDefect? builder.states.size))

/-- Where a state with these rules goes on a code point, or, without a code
point, on one that no edge covers.  The error state is never left. -/
def targetFrom (state : Nat) (rules : StateRules) (point : Option Nat) : StateId :=
  if state = error.toNat then
    error
  else
    (rules.target? point).getD error

/-- The target of every state on a code point, or on one that no edge
covers. -/
def column (point : Option Nat) : List StateId :=
  builder.states.toList.zipIdx.map fun (rules, state) => targetFrom state rules point

/-- All places where the answer of an edge may change: the ends of the edges
and of the code points, and the end of ASCII. -/
def cutPoints : List Nat :=
  [0, asciiCount, lastCodePoint + 1] ++
    builder.states.toList.flatMap fun rules =>
      rules.edges.toList.flatMap fun edge => [edge.lo.toNat, edge.hi.toNat + 1]

def cuts : List Nat :=
  (Std.ExtTreeSet.ofList builder.cutPoints compare).toList

/-- The intervals between neighbouring cuts. -/
def intervals : List Interval :=
  (builder.cuts.zip builder.cuts.tail).map fun (first, stop) => ⟨first, stop - 1⟩

/-- The distinct columns, in the order of their class numbers. -/
def columns : List (List StateId) :=
  (builder.column none ::
    builder.intervals.map fun interval => builder.column (some interval.first)).eraseDups

def classOfColumn (columns : List (List StateId)) (column : List StateId) : UInt16 :=
  UInt16.ofNat (columns.idxOf column)

/-- Put a range in front of a list, gluing it to a range of the same class that
starts right behind it. -/
def glueRange (range : ClassRange) : List ClassRange → List ClassRange
  | [] => [range]
  | next :: rest =>
      if range.cls = next.cls ∧ range.hi.toNat + 1 = next.lo.toNat then
        ⟨range.lo, next.hi, range.cls⟩ :: rest
      else
        range :: next :: rest

/-- The intervals outside ASCII with their classes; those of the class of all
others are left out, and neighbours of one class are glued together. -/
def classRanges (columns : List (List StateId)) : List ClassRange :=
  let ranges := (builder.intervals.filter fun interval => asciiCount ≤ interval.first).map
    fun interval =>
      ClassRange.mk (UInt32.ofNat interval.first) (UInt32.ofNat interval.last)
        (classOfColumn columns (builder.column (some interval.first)))
  (ranges.filter fun range => range.cls != otherClass).foldr glueRange []

def classMap (columns : List (List StateId)) : ClassMap where
  ascii := Vector.ofFn fun point =>
    classOfColumn columns (builder.column (some point.val))
  ranges := (builder.classRanges columns).toArray

def matrix (columns : List (List StateId)) : Array StateId :=
  let columns := columns.map List.toArray
  ((List.range builder.states.size).flatMap fun state =>
    columns.map fun column => column.getD state error).toArray

/-- The parts that a description without defects compiles to. -/
def parts : Parts where
  stateCount := UInt32.ofNat builder.states.size
  classCount := UInt32.ofNat builder.columns.length
  classes := builder.classMap builder.columns
  next := builder.matrix builder.columns
  tokenOf := builder.states.map fun rules => rules.accepts.getD KindId.absent
  kindNames := builder.kindNames
  start := start
  error := error

/-- The parts of the table that a description stands for.  Descriptions that
name missing states or need too many classes have none. -/
def compile : Except Defect Parts :=
  match builder.defect? with
  | some defect => .error defect
  | none =>
      if Parts.maxClassCount < builder.columns.length then
        .error (.tooManyClasses (Parts.maxClassCount + 1))
      else
        .ok builder.parts

def build : Except Defect Table :=
  builder.compile.bind Table.ofParts

end Builder

end MaximalMunch
