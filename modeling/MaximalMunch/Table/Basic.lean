import MaximalMunch.Table.Parts

/-!
# Tables

A table is a scanning automaton whose parts have been checked.  It never
changes, so any number of scans can use it at once.

States and classes are plain numbers, and a caller may ask about a number that
the table does not know.  Each such question has a checked form whose name ends
in a question mark and which answers `none`, and a total form that falls back
to the error state.
-/

namespace MaximalMunch

/-- A scanning automaton with valid parts. -/
structure Table where
  parts : Parts
  valid : parts.Valid
  deriving DecidableEq

namespace Table

/-- The table with the given parts, or the first defect of the parts. -/
def ofParts (parts : Parts) : Except Defect Table :=
  match sound : parts.defect? with
  | some defect => .error defect
  | none => .ok ⟨parts, Parts.valid_of_defect?_eq_none sound⟩

variable (table : Table)

/-- The state in which the walk of every token begins. -/
def start : StateId :=
  table.parts.start

/-- The state from which nothing is recognized any more. -/
def error : StateId :=
  table.parts.error

def stateCount : Nat :=
  table.parts.stateCount.toNat

def classCount : Nat :=
  table.parts.classCount.toNat

def kindCount : Nat :=
  table.parts.kindNames.size

def classOf (c : Char) : UInt16 :=
  table.parts.classes.classOf c

/-- The matrix entry at row `state` and column `cls`.  The matrix is one long
row, so a column number that is too large runs over into the next rows. -/
def transitionOn? (state : StateId) (cls : UInt16) : Option StateId :=
  table.parts.next[state.toNat * table.classCount + cls.toNat]?

def transition? (state : StateId) (c : Char) : Option StateId :=
  table.transitionOn? state (table.classOf c)

/-- The state that a character leads to, and the error state for a number that
is no state. -/
def transition (state : StateId) (c : Char) : StateId :=
  (table.transition? state c).getD table.error

/-- The stored kind of a state, which is `KindId.absent` when the state accepts
nothing. -/
def storedKind? (state : StateId) : Option KindId :=
  table.parts.tokenOf[state.toNat]?

/-- The kind that a state accepts, if any; `none` for a number that is no
state. -/
def kindOf? (state : StateId) : Option (Option KindId) :=
  (table.storedKind? state).map fun kind =>
    if kind = KindId.absent then none else some kind

/-- Whether a state accepts; `none` for a number that is no state. -/
def isAccepting? (state : StateId) : Option Bool :=
  (table.storedKind? state).map fun kind => kind != KindId.absent

def kindOf (state : StateId) : Option KindId :=
  (table.kindOf? state).join

def isAccepting (state : StateId) : Bool :=
  (table.isAccepting? state).getD false

/-- The name of a kind, and a question mark for a number the table never
issued. -/
def kindName (kind : KindId) : String :=
  if kind = KindId.unrecognized then KindId.unrecognizedName
  else table.parts.kindNames.getD kind.toNat "?"

def kindNamed? (name : String) : Option KindId :=
  if name = KindId.unrecognizedName then some KindId.unrecognized
  else (table.parts.kindNames.toList.idxOf? name).map UInt32.ofNat

/-- All kinds of the table with their names, in numeric order. -/
def kinds : List (KindId × String) :=
  table.parts.kindNames.toList.zipIdx.map fun (name, index) =>
    (UInt32.ofNat index, name)

end Table

end MaximalMunch
