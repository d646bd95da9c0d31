import MaximalMunch.Proofs.Calls
import Mathlib.Data.List.Forall2

/-!
# Pruning is invisible

Pruning forgets configurations that lie before the end of a token.  A walk looks
up only configurations behind the start of its open token, and that start never
goes back.  So a walk that prunes and one that never does answer every call in
the same way, even when the calls follow no text and the memory means nothing.
-/

namespace MaximalMunch

namespace Walk

/-- `restartAt` without pruning. -/
def restartKeeping (walk : Walk) (table : Table) (offset : Nat) : Walk where
  state := table.start
  tokenStart := offset
  cursor := offset
  firstLength := 0
  lastAccept := none
  dead := walk.dead.insertMany walk.trail
  trail := []
  pruneAt := walk.pruneAt

def emitKeeping (walk : Walk) (table : Table) : Token × Walk :=
  let token := walk.openToken table
  (token, walk.restartKeeping table token.stop)

def stepKeeping (walk : Walk) (table : Table) (c : Char) : Outcome × Walk :=
  let target := ⟨table.transition walk.state c, walk.cursor + c.utf8Size⟩
  let walk := walk.noteFirst c
  if walk.blocks table target then
    let (token, next) := walk.emitKeeping table
    (.boundary token, next)
  else
    (.consumed, walk.enter target (table.isAccepting target.state))

def finishKeeping (walk : Walk) (table : Table) : Option Token × Walk :=
  if walk.isPending then
    let (token, next) := walk.emitKeeping table
    (some token, next)
  else
    (none, walk)

/-- `call` of a walk that never prunes. -/
def callKeeping (table : Table) (walk : Walk) : Call → Option Token × Walk
  | .offer c => ((walk.stepKeeping table c).1.token?, (walk.stepKeeping table c).2)
  | .finish => walk.finishKeeping table

/-- Make one call after the other, with `answer` to carry them out.  Answers what
each call emitted, and the walk right after it. -/
def historyBy (answer : Walk → Call → Option Token × Walk) :
    Walk → List Call → List (Option Token × Walk)
  | _, [] => []
  | walk, call :: calls => answer walk call :: historyBy answer (answer walk call).2 calls

/-- The walks stand at the same place, and remember the same of what lies behind
the start of the open token. -/
structure AgreesAhead (walk keeping : Walk) : Prop where
  state_eq : walk.state = keeping.state
  tokenStart_eq : walk.tokenStart = keeping.tokenStart
  cursor_eq : walk.cursor = keeping.cursor
  firstLength_eq : walk.firstLength = keeping.firstLength
  lastAccept_eq : walk.lastAccept = keeping.lastAccept
  trail_eq : walk.trail = keeping.trail
  dead_iff : ∀ configuration : Configuration, walk.tokenStart < configuration.offset →
    (configuration ∈ walk.dead ↔ configuration ∈ keeping.dead)

variable {table : Table} {walk keeping : Walk}

theorem AgreesAhead.refl (walk : Walk) : walk.AgreesAhead walk :=
  ⟨rfl, rfl, rfl, rfl, rfl, rfl, fun _ _ => Iff.rfl⟩

theorem AgreesAhead.noteFirst (agrees : walk.AgreesAhead keeping) (c : Char) :
    (walk.noteFirst c).AgreesAhead (keeping.noteFirst c) := by
  have sameStart : walk.cursor = walk.tokenStart ↔ keeping.cursor = keeping.tokenStart := by
    rw [agrees.cursor_eq, agrees.tokenStart_eq]
  by_cases opens : walk.cursor = walk.tokenStart
  · rw [Walk.noteFirst, Walk.noteFirst, if_pos opens, if_pos (sameStart.mp opens)]
    exact { agrees with firstLength_eq := rfl }
  · rw [Walk.noteFirst, Walk.noteFirst, if_neg opens, if_neg (mt sameStart.mpr opens)]
    exact agrees

theorem AgreesAhead.enter (agrees : walk.AgreesAhead keeping) (target : Configuration)
    (accepting : Bool) :
    (walk.enter target accepting).AgreesAhead (keeping.enter target accepting) := by
  cases accepting with
  | true =>
      exact { agrees with
        state_eq := rfl
        cursor_eq := rfl
        lastAccept_eq := rfl
        trail_eq := rfl }
  | false =>
      exact { agrees with
        state_eq := rfl
        cursor_eq := rfl
        trail_eq := congrArg (target :: ·) agrees.trail_eq }

/-- The walks look up what lies behind the start of the open token only. -/
theorem AgreesAhead.blocks_eq (agrees : walk.AgreesAhead keeping) (table : Table)
    {target : Configuration} (ahead : walk.tokenStart < target.offset) :
    walk.blocks table target = keeping.blocks table target := by
  rw [Bool.eq_iff_iff]
  simp only [blocks, Bool.or_eq_true, Std.ExtTreeSet.contains_iff_mem,
    agrees.dead_iff target ahead]

theorem AgreesAhead.openToken_eq (agrees : walk.AgreesAhead keeping) (table : Table) :
    walk.openToken table = keeping.openToken table := by
  rw [openToken, openToken, agrees.lastAccept_eq, agrees.tokenStart_eq, agrees.firstLength_eq]

/-- What pruning forgets lies before the start of the next token. -/
theorem AgreesAhead.restart (agrees : walk.AgreesAhead keeping) (table : Table) {offset : Nat}
    (forward : walk.tokenStart ≤ offset) :
    (walk.restartAt table offset).AgreesAhead (keeping.restartKeeping table offset) where
  state_eq := rfl
  tokenStart_eq := rfl
  cursor_eq := rfl
  firstLength_eq := rfl
  lastAccept_eq := rfl
  trail_eq := rfl
  dead_iff := by
    intro configuration behind
    change offset < configuration.offset at behind
    have sameDead := agrees.dead_iff configuration (Nat.lt_of_le_of_lt forward behind)
    have kept : configuration ∈ (keeping.restartKeeping table offset).dead ↔
        configuration ∈ keeping.dead ∨ configuration ∈ keeping.trail := by
      simp [restartKeeping]
    rw [kept, ← sameDead, ← agrees.trail_eq]
    exact ⟨mem_or_mem_of_mem_restartAt, fun member => mem_restartAt_of_lt member behind⟩

theorem AgreesAhead.emit (agrees : walk.AgreesAhead keeping) (table : Table)
    (forward : walk.tokenStart ≤ (walk.openToken table).stop) :
    (walk.emit table).1 = (keeping.emitKeeping table).1 ∧
      (walk.emit table).2.AgreesAhead (keeping.emitKeeping table).2 := by
  have sameToken := agrees.openToken_eq table
  refine ⟨sameToken, ?_⟩
  rw [Walk.emit, emitKeeping, ← sameToken]
  exact agrees.restart table forward

/-- A call does the same to walks that agree, whether they prune or not. -/
theorem AgreesAhead.call (agrees : walk.AgreesAhead keeping) (steady : walk.Steady table)
    (call : Call) :
    (walk.call table call).1 = (keeping.callKeeping table call).1 ∧
      (walk.call table call).2.AgreesAhead (keeping.callKeeping table call).2 := by
  obtain ⟨⟨matched, tail, follows⟩, _⟩ := steady
  cases call with
  | offer c =>
      have noted := agrees.noteFirst c
      have forward : (walk.noteFirst c).tokenStart ≤
          ((walk.noteFirst c).openToken table).stop :=
        (noteFirst_tracks follows.toTracks c).tokenStart_le_stop
      -- A character has at least one byte, so the target is never looked up where
      -- pruning may have forgotten it.
      have ahead : (walk.noteFirst c).tokenStart < walk.cursor + c.utf8Size := by
        rw [noteFirst_tokenStart]
        exact follows.tokenStart_lt_advance c
      obtain ⟨sameToken, sameNext⟩ := noted.emit table forward
      have sameBlocks : (walk.noteFirst c).blocks table
            ⟨table.transition walk.state c, walk.cursor + c.utf8Size⟩ =
          (keeping.noteFirst c).blocks table
            ⟨table.transition walk.state c, walk.cursor + c.utf8Size⟩ :=
        noted.blocks_eq table ahead
      simp only [Walk.call, callKeeping, step, stepKeeping, ← agrees.state_eq, ← agrees.cursor_eq,
        ← sameBlocks]
      split
      · exact ⟨congrArg some sameToken, sameNext⟩
      · exact ⟨rfl, noted.enter _ _⟩
  | finish =>
      obtain ⟨sameToken, sameNext⟩ := agrees.emit table follows.tokenStart_le_stop
      have samePending : walk.isPending = keeping.isPending := by
        rw [isPending, isPending, agrees.tokenStart_eq, agrees.cursor_eq]
      simp only [Walk.call, callKeeping, finish, finishKeeping, ← samePending]
      split
      · exact ⟨congrArg some sameToken, sameNext⟩
      · exact ⟨rfl, agrees⟩

theorem AgreesAhead.historyBy (agrees : walk.AgreesAhead keeping) (steady : walk.Steady table)
    (calls : List Call) :
    List.Forall₂ (fun pruned kept => pruned.1 = kept.1 ∧ pruned.2.AgreesAhead kept.2)
      (walk.historyBy (Walk.call table) calls) (keeping.historyBy (callKeeping table) calls) := by
  induction calls generalizing walk keeping with
  | nil => exact .nil
  | cons call calls ih =>
      have called := agrees.call steady call
      exact .cons called (ih called.2 (steady.call call))

/-- Pruning is invisible: from any offset on and under any calls, a walk and one
that never prunes emit the same tokens and stand at the same place after each
call, and what they remember differs only where no call will ever look. -/
theorem historyBy_callKeeping_agrees (table : Table) (offset : Nat) (calls : List Call) :
    List.Forall₂ (fun pruned kept => pruned.1 = kept.1 ∧ pruned.2.AgreesAhead kept.2)
      (historyBy (call table) (startAt table offset) calls)
      (historyBy (callKeeping table) (startAt table offset) calls) :=
  (AgreesAhead.refl _).historyBy (startAt_steady table offset) calls

end Walk

end MaximalMunch
