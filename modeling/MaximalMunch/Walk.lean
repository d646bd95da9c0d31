import MaximalMunch.Table.Basic
import Std.Data.ExtTreeSet

/-!
# Walks

A walk follows the automaton through the characters of one token after the
other.  It remembers the last accepting state it came through.  When a
character cannot extend the open token, the token ends at that last accept and
the walk goes back to there; when there was none, the first character alone
becomes an unrecognized token.

Going back means that characters are read again by later tokens.  To keep a
whole scan linear, a walk remembers dead configurations: pairs of a state and
an offset that were passed behind the last accept of some token.  Arriving at
one again would fail again, so the walk stops at once.  The memory is pruned
when it has grown: no configuration at or before the start of the open token
can ever be reached again.

Offsets are byte offsets into a text that the walk itself never sees.
-/

namespace MaximalMunch

/-- A state together with the offset at which it was entered. -/
structure Configuration where
  state : StateId
  offset : Nat
  deriving DecidableEq, Repr

namespace Configuration

/-- Configurations are ordered by offset, then by state. -/
def order : Configuration → Configuration → Ordering :=
  compareLex (compareOn offset) (compareOn state)

instance : Std.TransCmp order :=
  inferInstanceAs (Std.TransCmp (compareLex _ _))

instance : Std.LawfulEqCmp order where
  eq_of_compare := by
    intro first second equal
    simp only [order, compareLex_eq_eq, compareOn] at equal
    cases first
    cases second
    simpa using And.intro (Std.LawfulEqOrd.eq_of_compare equal.2)
      (Std.LawfulEqOrd.eq_of_compare equal.1)

end Configuration

abbrev Configurations := Std.ExtTreeSet Configuration Configuration.order

/-- What one character did to a walk. -/
inductive Outcome
  /-- The character was consumed and the token is still open. -/
  | consumed
  /-- The character could not extend the token, which has been emitted.  The
  character was not consumed, unless the token is just that character. -/
  | boundary (token : Token)
  deriving DecidableEq, Repr

structure Walk where
  state : StateId
  tokenStart : Nat
  /-- Where the next character is expected. -/
  cursor : Nat
  /-- Byte length of the first character of the open token, `0` before it is
  seen. -/
  firstLength : Nat
  /-- The last accepting configuration of the open token. -/
  lastAccept : Option Configuration
  /-- Configurations from which no accept can be reached. -/
  dead : Configurations
  /-- Configurations passed since the last accept, the newest first. -/
  trail : List Configuration
  /-- The size beyond which the dead configurations are pruned. -/
  pruneAt : Nat
  deriving DecidableEq

namespace Walk

/-- Memories up to this size are never pruned. -/
abbrev pruneFloor : Nat := 4096

/-- The largest offset that can be represented. -/
abbrev maxOffset : Nat := UInt64.size - 1

/-- A fresh walk whose first token starts at `offset`. -/
def startAt (table : Table) (offset : Nat) : Walk where
  state := table.start
  tokenStart := offset
  cursor := offset
  firstLength := 0
  lastAccept := none
  dead := ∅
  trail := []
  pruneAt := pruneFloor

/-- Whether characters have been consumed into a token not yet emitted. -/
def isPending (walk : Walk) : Bool :=
  walk.tokenStart < walk.cursor

/-- The token that ends at the last accept, or else covers only the first
character. -/
def openToken (walk : Walk) (table : Table) : Token :=
  match walk.lastAccept with
  | some accept =>
      ⟨walk.tokenStart, accept.offset,
        (table.kindOf accept.state).getD KindId.unrecognized⟩
  | none =>
      ⟨walk.tokenStart, walk.tokenStart + walk.firstLength, KindId.unrecognized⟩

/-- Forget configurations that lie before `offset`, once there are more than
`limit`.  Answers what is left, and the next limit. -/
def prune (dead : Configurations) (limit offset : Nat) : Configurations × Nat :=
  if limit < dead.size then
    let kept := dead.filter fun configuration => offset < configuration.offset
    (kept, max (kept.size * 2) pruneFloor)
  else
    (dead, limit)

/-- Start over at `offset`, where the emitted token ends.  What was passed
since its last accept is dead from now on. -/
def restartAt (walk : Walk) (table : Table) (offset : Nat) : Walk :=
  let (dead, limit) := prune (walk.dead.insertMany walk.trail) walk.pruneAt offset
  { state := table.start
    tokenStart := offset
    cursor := offset
    firstLength := 0
    lastAccept := none
    dead := dead
    trail := []
    pruneAt := limit }

def emit (walk : Walk) (table : Table) : Token × Walk :=
  let token := walk.openToken table
  (token, walk.restartAt table token.stop)

/-- Take down the length of a character that opens a token. -/
def noteFirst (walk : Walk) (c : Char) : Walk :=
  if walk.cursor = walk.tokenStart then
    { walk with firstLength := c.utf8Size }
  else
    walk

/-- Move to a configuration that is neither dead nor in the error state. -/
def enter (walk : Walk) (target : Configuration) (accepting : Bool) : Walk :=
  if accepting then
    { walk with
      state := target.state
      cursor := target.offset
      lastAccept := some target
      trail := [] }
  else
    { walk with
      state := target.state
      cursor := target.offset
      trail := target :: walk.trail }

/-- Whether a configuration ends the open token. -/
def blocks (walk : Walk) (table : Table) (target : Configuration) : Bool :=
  target.state == table.error || walk.dead.contains target

def step (walk : Walk) (table : Table) (c : Char) : Outcome × Walk :=
  let target := ⟨table.transition walk.state c, walk.cursor + c.utf8Size⟩
  let walk := walk.noteFirst c
  if walk.blocks table target then
    let (token, next) := walk.emit table
    (.boundary token, next)
  else
    (.consumed, walk.enter target (table.isAccepting target.state))

/-- Tell the walk that no character follows.  Emits the open token, if any;
what comes behind it must be offered again.  The text must not grow afterwards,
because configurations passed up to its end count as dead. -/
def finish (walk : Walk) (table : Table) : Option Token × Walk :=
  if walk.isPending then
    let (token, next) := walk.emit table
    (some token, next)
  else
    (none, walk)

def emit? (walk : Walk) (table : Table) : Option (Token × Walk) :=
  match walk.lastAccept with
  | none => some (walk.emit table)
  | some accept => (table.kindOf? accept.state).map fun _ => walk.emit table

/-- `step` with every look-up and the sum of offsets checked. -/
def step? (walk : Walk) (table : Table) (c : Char) : Option (Outcome × Walk) := do
  let state ← table.transition? walk.state c
  let offset := walk.cursor + c.utf8Size
  guard (offset ≤ maxOffset)
  let walk := walk.noteFirst c
  if walk.blocks table ⟨state, offset⟩ then
    let (token, next) ← walk.emit? table
    return (.boundary token, next)
  else
    let accepting ← table.isAccepting? state
    return (.consumed, walk.enter ⟨state, offset⟩ accepting)

def finish? (walk : Walk) (table : Table) : Option (Option Token × Walk) :=
  if walk.isPending then
    (walk.emit? table).map fun (token, next) => (some token, next)
  else
    some (none, walk)

/-- Offer characters until a token is emitted or there are none left, and then
finish.  Also counts the characters that were offered, on top of `steps`. -/
def munch (walk : Walk) (table : Table) (steps : Nat) :
    List Char → Option Token × Walk × Nat
  | [] =>
      let (token, next) := walk.finish table
      (token, next, steps)
  | c :: rest =>
      match walk.step table c with
      | (.boundary token, next) => (some token, next, steps + 1)
      | (.consumed, next) => next.munch table (steps + 1) rest

end Walk

end MaximalMunch
