import MaximalMunch.Table.Basic

/-!
# Describing an automaton

A builder collects the states of an automaton, the edges between them and the
kinds they accept.  An edge covers a range of characters.  Of the edges of a
state the first one that covers a character decides; a state may also name a
fallback for all characters that no edge covers.

State `0` is the initial state and state `1` the error state.  Operations take
plain numbers and never fail because of a number: the first unknown state that
an operation starts from is remembered, and is reported when the table is
built.
-/

namespace MaximalMunch

/-- The characters from `lo` to `hi`, both included, lead to `target`. -/
structure Edge where
  lo : Char
  hi : Char
  target : StateId
  deriving DecidableEq, Repr

def Edge.covers (edge : Edge) (point : Nat) : Bool :=
  edge.lo.toNat ≤ point && point ≤ edge.hi.toNat

structure StateRules where
  /-- The edges in the order in which they were added. -/
  edges : Array Edge := #[]
  fallback : Option StateId := none
  accepts : Option KindId := none
  deriving DecidableEq, Repr

namespace StateRules

def edgeTarget? (rules : StateRules) (point : Nat) : Option StateId :=
  (rules.edges.toList.find? fun edge => edge.covers point).map Edge.target

/-- The target of a code point: that of its first edge, or else the fallback.
Without a code point, the target of one that no edge covers. -/
def target? (rules : StateRules) (point : Option Nat) : Option StateId :=
  (point.bind rules.edgeTarget?).or rules.fallback

end StateRules

/-- A description of an automaton that can be extended step by step. -/
structure Builder where
  states : Array StateRules
  kindNames : Array String
  /-- The first state that an operation started from although it did not
  exist. -/
  dangling : Option StateId
  deriving DecidableEq, Repr

namespace Builder

/-- The initial state of every description. -/
def start : StateId := 0

/-- The error state of every description. -/
def error : StateId := 1

/-- The description that holds only the initial state and the error state. -/
def empty : Builder where
  states := #[{}, {}]
  kindNames := #[]
  dangling := none

/-- Register a kind; numbers are handed out in the order of registration. -/
def addKind (builder : Builder) (name : String) : Except Defect (KindId × Builder) :=
  if name = KindId.unrecognizedName ∨ name ∈ builder.kindNames then
    .error (.duplicateKindName name)
  else
    .ok (UInt32.ofNat builder.kindNames.size,
      { builder with kindNames := builder.kindNames.push name })

def addStateWith (builder : Builder) (rules : StateRules) : StateId × Builder :=
  (UInt32.ofNat builder.states.size,
    { builder with states := builder.states.push rules })

def addState (builder : Builder) : StateId × Builder :=
  builder.addStateWith {}

def addAccepting (builder : Builder) (kind : KindId) : StateId × Builder :=
  builder.addStateWith { accepts := some kind }

/-- Change what is said about a state, or remember that it does not exist. -/
def modifyState (builder : Builder) (state : StateId)
    (change : StateRules → StateRules) : Builder :=
  if state.toNat < builder.states.size then
    { builder with states := builder.states.modify state.toNat change }
  else
    { builder with dangling := builder.dangling.or (some state) }

/-- Let a state accept `kind`, in place of what it accepted before. -/
def accept (builder : Builder) (state : StateId) (kind : KindId) : Builder :=
  builder.modifyState state fun rules => { rules with accepts := some kind }

def onRange (builder : Builder) (source : StateId) (lo hi : Char)
    (target : StateId) : Builder :=
  builder.modifyState source fun rules =>
    { rules with edges := rules.edges.push ⟨lo, hi, target⟩ }

def on (builder : Builder) (source : StateId) (c : Char) (target : StateId) : Builder :=
  builder.onRange source c c target

def onAny (builder : Builder) (source : StateId) (chars : String)
    (target : StateId) : Builder :=
  chars.toList.foldl (fun builder c => builder.on source c target) builder

/-- Set the target of all characters that no edge of `source` covers. -/
def otherwise (builder : Builder) (source target : StateId) : Builder :=
  builder.modifyState source fun rules => { rules with fallback := some target }

inductive Operation
  | kind (name : String)
  | state
  | accepting (kind : KindId)
  | accept (state : StateId) (kind : KindId)
  | on (source : StateId) (c : Char) (target : StateId)
  | onRange (source : StateId) (lo hi : Char) (target : StateId)
  | onAny (source : StateId) (chars : String) (target : StateId)
  | otherwise (source target : StateId)
  deriving DecidableEq, Repr

/-- Carry out an operation.  The number in the answer is that of a new kind or
a new state. -/
def apply (builder : Builder) : Operation → Except Defect (Option UInt32 × Builder)
  | .kind name => (builder.addKind name).map fun (kind, next) => (some kind, next)
  | .state => let (state, next) := builder.addState; .ok (some state, next)
  | .accepting kind =>
      let (state, next) := builder.addAccepting kind
      .ok (some state, next)
  | .accept state kind => .ok (none, builder.accept state kind)
  | .on source c target => .ok (none, builder.on source c target)
  | .onRange source lo hi target => .ok (none, builder.onRange source lo hi target)
  | .onAny source chars target => .ok (none, builder.onAny source chars target)
  | .otherwise source target => .ok (none, builder.otherwise source target)

/-- Carry out all operations; one that fails changes nothing. -/
def perform (builder : Builder) (operations : List Operation) : Builder :=
  operations.foldl
    (fun builder operation =>
      match builder.apply operation with
      | .error _ => builder
      | .ok (_, next) => next)
    builder

end Builder

end MaximalMunch
