import MaximalMunch.Table.Basic
import MaximalMunch.Text.Alphanumeric
import MaximalMunch.Text.Quoted

/-!
# Drawings of tables

A table is drawn as a directed graph in the language of Graphviz.  Accepting
states have a double border and show the name of their kind, and the initial
state is a box unless it accepts.  Transitions to the error state are left out,
and so is that state itself.
-/

namespace MaximalMunch

namespace Graph

/-- The printable ASCII characters that are neither blank, letter nor digit. -/
def isAsciiPunctuation (c : Char) : Bool :=
  '!' ≤ c && c ≤ '~' && !c.isAlphanum

/-- A code point in a label: letters, numbers and ASCII punctuation stand for
themselves, all others are written by number. -/
def pointLabel (point : Nat) : List Char :=
  if point.isValidChar then
    let c := Char.ofNat point
    if Text.isAlphanumeric c || isAsciiPunctuation c then
      if c = '\x22' ∨ c = '\\' then ['\\', c] else [c]
    else
      '\\' :: Text.numbered c
  else
    ['\\', '\\', 'u', '\x7b'] ++ Text.hexadecimal point ++ ['\x7d']

def intervalLabel (interval : Interval) : List Char :=
  if interval.first = interval.last then
    pointLabel interval.first
  else
    pointLabel interval.first ++ ['-'] ++ pointLabel interval.last

def classLabel (table : Table) (cls : UInt16) : String :=
  if cls = otherClass then
    "other"
  else
    String.ofList
      (List.intercalate [','] ((table.parts.classes.intervalsOf cls).map intervalLabel))

inductive Statement
  /-- A state that accepts a kind of the given name. -/
  | accepting (state : Nat) (name : String)
  /-- The initial state, when it does not accept. -/
  | initial (state : Nat)
  | edge (source target : Nat) (label : String)
  deriving DecidableEq, Repr

def Statement.render : Statement → String
  | .accepting state name =>
      s!"  {state} [peripheries=2, label=\"{state}\\n{name}\"];"
  | .initial state => s!"  {state} [shape=box];"
  | .edge source target label => s!"  {source} -> {target} [label=\"{label}\"];"

/-- What is drawn of the state itself. -/
def nodeStatement? (table : Table) (state : StateId) : Option Statement :=
  match table.kindOf state with
  | some kind => some (.accepting state.toNat (table.kindName kind))
  | none => if state = table.start then some (.initial state.toNat) else none

/-- The transition of a state on a class, unless it leads to the error state. -/
def edgeStatement? (table : Table) (state : StateId) (cls : Nat) : Option Statement :=
  let target := (table.transitionOn? state (UInt16.ofNat cls)).getD table.error
  if target = table.error then
    none
  else
    some (.edge state.toNat target.toNat (classLabel table (UInt16.ofNat cls)))

def stateStatements (table : Table) (state : StateId) : List Statement :=
  if state = table.error then
    []
  else
    (nodeStatement? table state).toList ++
      (List.range table.classCount).filterMap (edgeStatement? table state)

def statements (table : Table) : List Statement :=
  (List.range table.stateCount).flatMap fun state =>
    stateStatements table (UInt32.ofNat state)

def lines (table : Table) : List String :=
  ["digraph state_machine \x7b", "  rankdir=LR;"] ++
    (statements table).map Statement.render ++ ["\x7d"]

def draw (table : Table) : String :=
  String.join ((lines table).map fun line => line ++ "\n")

end Graph

end MaximalMunch
