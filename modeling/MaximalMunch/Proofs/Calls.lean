import MaximalMunch.Proofs.ClassLookup
import MaximalMunch.Proofs.Tokenize

/-!
# Walks under arbitrary calls

A caller may offer any characters in any order, may pay no heed to where the
walk wants to go on, and may say at any time that no character follows.  There
is then no text behind the offsets, and the memory says nothing about what will
be offered.  Still every look-up succeeds as long as the offsets can be
represented, and the tokens follow one another without gaps.

The invariant has two parts.  The walk follows some characters, namely those
that it consumed since the start of its token; and it remembers idle states
only.
-/

namespace MaximalMunch

theorem ClassMap.Valid.classOf_lt {classes : ClassMap} {classCount : UInt32}
    (valid : classes.Valid classCount) (hasClass : 1 ≤ classCount.toNat) (c : Char) :
    (classes.classOf c).toNat < classCount.toNat := by
  rw [classOf]
  split
  case isTrue =>
    exact UInt32.lt_iff_toNat_lt.mp (valid.ascii_lt _ (Vector.getElem_mem _))
  case isFalse =>
    cases found : classes.rangeAt? c.val with
    | none => exact hasClass
    | some range =>
        have member := ((rangeAt?_eq_some_iff valid).mp found).1
        exact UInt32.lt_iff_toNat_lt.mp (valid.range_lt range member)

namespace Table

variable {table : Table} {state : StateId}

/-- A state has an entry for every character, in its own row of the matrix. -/
theorem transition?_eq_some (known : state.toNat < table.stateCount) (c : Char) :
    table.transition? state c = some (table.transition state c) := by
  have classLt : (table.classOf c).toNat < table.classCount :=
    table.valid.classes_valid.classOf_lt table.valid.classCount_pos c
  have entry : state.toNat * table.classCount + (table.classOf c).toNat <
      table.parts.next.size := by
    rw [table.valid.next_size]
    calc
      state.toNat * table.classCount + (table.classOf c).toNat
        < (state.toNat + 1) * table.classCount := by rw [Nat.succ_mul]; omega
      _ ≤ table.stateCount * table.classCount := Nat.mul_le_mul_right _ known
  rw [transition, transition?, transitionOn?, Array.getElem?_eq_getElem entry,
    Option.getD_some]

theorem storedKind?_eq_some (known : state.toNat < table.stateCount) :
    ∃ kind, table.storedKind? state = some kind := by
  have entry : state.toNat < table.parts.tokenOf.size := by
    rw [table.valid.tokenOf_size]
    exact known
  exact ⟨_, Array.getElem?_eq_getElem entry⟩

theorem isAccepting?_eq_some (known : state.toNat < table.stateCount) :
    table.isAccepting? state = some (table.isAccepting state) := by
  obtain ⟨kind, stored⟩ := storedKind?_eq_some known
  simp [isAccepting, isAccepting?, stored]

theorem exists_kindOf?_of_isAccepting (accepting : table.isAccepting state = true) :
    ∃ kind, table.kindOf? state = some kind := by
  simp only [isAccepting, isAccepting?] at accepting
  cases stored : table.storedKind? state with
  | none =>
      rw [stored] at accepting
      cases accepting
  | some kind => exact ⟨_, by rw [kindOf?, stored, Option.map_some]⟩

theorem run?_lt {word : List Char} {target : StateId} (known : state.toNat < table.stateCount)
    (runs : table.run? state word = some target) : target.toNat < table.stateCount := by
  induction word generalizing state with
  | nil =>
      cases runs
      exact known
  | cons c word ih =>
      simp only [run?] at runs
      split at runs
      case isTrue => cases runs
      case isFalse => exact ih (transition_lt state c) runs

end Table

theorem Configuration.Idling.idle {table : Table} {base : Configuration} {tail : List Char}
    {trail : List Configuration} (idling : Idling table base tail trail) :
    ∀ configuration ∈ trail, table.IsIdle configuration.state := by
  induction idling with
  | nil => exact fun _ member => nomatch member
  | snoc _ idle ih => exact List.forall_mem_cons.mpr ⟨idle, ih⟩

/-- What a caller asks of a walk. -/
inductive Call
  | offer (c : Char)
  | finish
  deriving DecidableEq, Repr

/-- The token of an outcome, unless the character was consumed. -/
def Outcome.token? : Outcome → Option Token
  | .consumed => none
  | .boundary token => some token

namespace Walk

variable (table : Table)

/-- Make a call.  Answers the token that it makes the walk emit, if any. -/
def call (walk : Walk) : Call → Option Token × Walk
  | .offer c => ((walk.step table c).1.token?, (walk.step table c).2)
  | .finish => walk.finish table

/-- `call` with every look-up and the sum of offsets checked. -/
def call? (walk : Walk) : Call → Option (Option Token × Walk)
  | .offer c => (walk.step? table c).map fun (outcome, next) => (outcome.token?, next)
  | .finish => walk.finish? table

/-- Make one call after the other, with all checks.  Answers what each call
emitted, and the walk right after it. -/
def history? : Walk → List Call → Option (List (Option Token × Walk))
  | _, [] => some []
  | walk, call :: calls => do
      let (token, next) ← walk.call? table call
      let later ← history? next calls
      return (token, next) :: later

/-- The offset behind a character that is offered can be represented. -/
def Admits (walk : Walk) : Call → Prop
  | .offer c => walk.cursor + c.utf8Size ≤ maxOffset
  | .finish => True

instance (walk : Walk) : (call : Call) → Decidable (walk.Admits call)
  | .offer _ => inferInstanceAs (Decidable (_ ≤ _))
  | .finish => inferInstanceAs (Decidable True)

/-- Each call is admitted when its turn comes. -/
def AdmitsAll : Walk → List Call → Prop
  | _, [] => True
  | walk, call :: calls => walk.Admits call ∧ AdmitsAll (walk.call table call).2 calls

instance decidableAdmitsAll : (walk : Walk) → (calls : List Call) →
    Decidable (walk.AdmitsAll table calls)
  | _, [] => inferInstanceAs (Decidable True)
  | walk, call :: calls =>
      have := decidableAdmitsAll (walk.call table call).2 calls
      inferInstanceAs (Decidable (_ ∧ _))

/-- How the fields of a walk fit together, whatever calls were made. -/
structure WellFormed (walk : Walk) : Prop where
  state_lt : walk.state.toNat < table.stateCount
  tokenStart_le : walk.tokenStart ≤ walk.cursor
  firstLength_eq_zero_iff : walk.firstLength = 0 ↔ walk.cursor = walk.tokenStart
  firstLength_le : walk.cursor ≠ walk.tokenStart →
    walk.tokenStart + walk.firstLength ≤ walk.cursor
  lastAccept_spec : ∀ accept ∈ walk.lastAccept, table.isAccepting accept.state = true ∧
    walk.tokenStart < accept.offset ∧ accept.offset ≤ walk.cursor
  dead_idle : ∀ configuration ∈ walk.dead, table.IsIdle configuration.state

/-- The walk stands in the initial state at the start of a token. -/
structure FreshAt (walk : Walk) (offset : Nat) : Prop where
  tokenStart_eq : walk.tokenStart = offset
  cursor_eq : walk.cursor = offset
  state_eq : walk.state = table.start
  lastAccept_eq : walk.lastAccept = none

/-- After each call the walk is well formed.  Tokens are not empty, the first
one starts at `offset` and each other one where the one before it ends, and
right after a token the walk stands at its end. -/
inductive Orderly : Nat → List (Option Token × Walk) → Prop
  | nil {offset : Nat} : Orderly offset []
  | silent {offset : Nat} {walk : Walk} {later : List (Option Token × Walk)}
      (wellFormed : walk.WellFormed table) (tokenStart_eq : walk.tokenStart = offset)
      (others : Orderly offset later) : Orderly offset ((none, walk) :: later)
  | emitted {token : Token} {walk : Walk} {later : List (Option Token × Walk)}
      (wellFormed : walk.WellFormed table) (nonempty : token.start < token.stop)
      (fresh : walk.FreshAt table token.stop) (others : Orderly token.stop later) :
      Orderly token.start ((some token, walk) :: later)

/-- The walk follows the characters it consumed since the start of its token,
whichever they are, and remembers idle states only. -/
structure Steady (walk : Walk) : Prop where
  follows : ∃ matched tail, walk.Follows table matched tail
  dead_idle : ∀ configuration ∈ walk.dead, table.IsIdle configuration.state

variable {table} {walk : Walk} {matched tail : List Char}

theorem startAt_steady (table : Table) (offset : Nat) : (startAt table offset).Steady table where
  follows := ⟨[], [], startAt_follows table offset⟩
  dead_idle configuration member := by simp [startAt] at member

theorem Steady.wellFormed (steady : walk.Steady table) : walk.WellFormed table := by
  obtain ⟨⟨matched, tail, follows⟩, dead_idle⟩ := steady
  have cursorEq := follows.cursor_eq
  have startLt : table.start.toNat < table.stateCount :=
    UInt32.lt_iff_toNat_lt.mp table.valid.start_lt
  constructor
  case state_lt => exact Table.run?_lt startLt follows.run?_eq
  case tokenStart_le => omega
  case firstLength_eq_zero_iff =>
    rw [follows.firstLength_eq, Text.byteLength_eq_zero, follows.cursor_eq_tokenStart_iff,
      List.take_eq_nil_iff]
    simp
  case firstLength_le =>
    intro _
    have parts := congrArg Text.byteLength (List.take_append_drop 1 (matched ++ tail))
    rw [Text.byteLength_append, ← follows.firstLength_eq] at parts
    omega
  case lastAccept_spec =>
    intro accept accepts
    obtain ⟨nonempty, accepting⟩ := follows.accepted accept accepts
    have positive := Text.byteLength_pos nonempty
    have offsetEq := follows.anchor_offset
    simp only [anchor, Option.mem_def.mp accepts, Option.getD_some] at offsetEq
    rw [Text.byteLength_append] at cursorEq
    exact ⟨accepting, by omega, by omega⟩
  case dead_idle => exact dead_idle

theorem Tracks.tokenStart_le_stop (tracks : walk.Tracks table matched tail) :
    walk.tokenStart ≤ (walk.openToken table).stop := by
  rw [openToken]
  cases lastAccept : walk.lastAccept with
  | none => exact Nat.le_add_right _ _
  | some accept =>
      have offsetEq := tracks.anchor_offset
      simp only [anchor, lastAccept, Option.getD_some] at offsetEq
      simp only [offsetEq]
      exact Nat.le_add_right _ _

theorem Tracks.openToken_spec (tracks : walk.Tracks table matched tail)
    (opened : 0 < walk.firstLength) :
    (walk.openToken table).start = walk.tokenStart ∧
      walk.tokenStart < (walk.openToken table).stop := by
  rw [openToken]
  cases lastAccept : walk.lastAccept with
  | none => exact ⟨rfl, Nat.lt_add_of_pos_right opened⟩
  | some accept =>
      have positive := Text.byteLength_pos (tracks.accepted accept lastAccept).1
      have offsetEq := tracks.anchor_offset
      simp only [anchor, lastAccept, Option.getD_some] at offsetEq
      refine ⟨rfl, ?_⟩
      simp only
      omega

/-- A token is not empty and starts where its walk says, and the walk is steady
behind it. -/
theorem Tracks.emit_spec (tracks : walk.Tracks table matched tail)
    (opened : 0 < walk.firstLength)
    (dead_idle : ∀ configuration ∈ walk.dead, table.IsIdle configuration.state) :
    ∃ token next, walk.emit table = (token, next) ∧ token.start = walk.tokenStart ∧
      token.start < token.stop ∧ next.FreshAt table token.stop ∧ next.Steady table := by
  obtain ⟨startEq, startLt⟩ := tracks.openToken_spec opened
  refine ⟨_, _, rfl, startEq, startEq ▸ startLt, ⟨rfl, rfl, rfl, rfl⟩, ?_⟩
  refine ⟨⟨[], [], restartAt_follows table walk _⟩, ?_⟩
  intro configuration member
  rcases mem_or_mem_of_mem_restartAt member with dead | passed
  · exact dead_idle configuration dead
  · exact tracks.idling.idle configuration passed

theorem emit?_eq_some (accepting : ∀ accept ∈ walk.lastAccept,
    table.isAccepting accept.state = true) :
    walk.emit? table = some (walk.emit table) := by
  rw [emit?]
  split
  case h_1 => rfl
  case h_2 accept accepts =>
    obtain ⟨kind, kindEq⟩ := Table.exists_kindOf?_of_isAccepting (accepting accept accepts)
    rw [kindEq, Option.map_some]

/-- Every look-up of a call succeeds. -/
theorem WellFormed.call?_eq_some (wellFormed : walk.WellFormed table) {call : Call}
    (admitted : walk.Admits call) :
    walk.call? table call = some (walk.call table call) := by
  have accepting : ∀ accept ∈ walk.lastAccept, table.isAccepting accept.state = true :=
    fun accept accepts => (wellFormed.lastAccept_spec accept accepts).1
  cases call with
  | offer c =>
      have emits : (walk.noteFirst c).emit? table = some ((walk.noteFirst c).emit table) :=
        emit?_eq_some (by simpa using accepting)
      have representable : guard (walk.cursor + c.utf8Size ≤ maxOffset) = some () :=
        if_pos admitted
      have stepEq : walk.step? table c = some (walk.step table c) := by
        simp only [step?, step, Table.transition?_eq_some wellFormed.state_lt, emits,
          Table.isAccepting?_eq_some (Table.transition_lt walk.state c), bind,
          Option.bind_some, ↓representable, pure]
        split <;> rfl
      rw [call?, stepEq, Option.map_some]
      rfl
  | finish =>
      rw [call?, call, finish?, finish]
      split
      · rw [emit?_eq_some accepting, Option.map_some]
      · rfl

/-- A call either emits nothing and leaves the start of the token alone, or
emits a token that is not empty and starts there. -/
theorem Steady.call_cases (steady : walk.Steady table) (call : Call) :
    (∃ next, walk.call table call = (none, next) ∧ next.tokenStart = walk.tokenStart ∧
      next.Steady table) ∨
    ∃ token next, walk.call table call = (some token, next) ∧ token.start = walk.tokenStart ∧
      token.start < token.stop ∧ next.FreshAt table token.stop ∧ next.Steady table := by
  obtain ⟨⟨matched, tail, follows⟩, dead_idle⟩ := steady
  cases call with
  | offer c =>
      rcases step_cases follows c with
        ⟨next, stepEq, nextStart, nextDead, _, extended⟩ | ⟨_, stepEq⟩
      · left
        refine ⟨next, by rw [call, stepEq]; rfl, nextStart, ?_, nextDead ▸ dead_idle⟩
        rcases extended with extended | extended
        · exact ⟨_, _, extended⟩
        · exact ⟨_, _, extended⟩
      · right
        have opened : 0 < (walk.noteFirst c).firstLength := by
          rw [noteFirst_firstLength follows c []]
          exact Text.byteLength_pos (by simp)
        obtain ⟨token, next, emitEq, emitted⟩ :=
          (noteFirst_tracks follows.toTracks c).emit_spec opened (by simpa using dead_idle)
        rw [noteFirst_tokenStart] at emitted
        exact ⟨token, next, by rw [call, stepEq, emitEq]; rfl, emitted⟩
  | finish =>
      by_cases pending : walk.isPending = true
      · right
        have opened : 0 < walk.firstLength := by
          rw [follows.firstLength_eq]
          apply Text.byteLength_pos
          simpa using follows.isPending_iff.mp pending
        obtain ⟨token, next, emitEq, emitted⟩ := follows.emit_spec opened dead_idle
        exact ⟨token, next, by rw [call, finish, if_pos pending, emitEq], emitted⟩
      · left
        exact ⟨walk, by rw [call, finish, if_neg pending], rfl, ⟨_, _, follows⟩, dead_idle⟩

theorem Steady.call (steady : walk.Steady table) (call : Call) :
    (walk.call table call).2.Steady table := by
  rcases steady.call_cases call with
    ⟨next, callEq, _, nextSteady⟩ | ⟨token, next, callEq, _, _, _, nextSteady⟩
  · rw [callEq]
    exact nextSteady
  · rw [callEq]
    exact nextSteady

theorem Steady.history?_orderly (steady : walk.Steady table) {calls : List Call}
    (admitted : walk.AdmitsAll table calls) :
    ∃ history, walk.history? table calls = some history ∧ history.length = calls.length ∧
      Orderly table walk.tokenStart history := by
  induction calls generalizing walk with
  | nil => exact ⟨[], rfl, rfl, .nil⟩
  | cons call calls ih =>
      obtain ⟨admitted, admittedRest⟩ := admitted
      have called := steady.wellFormed.call?_eq_some admitted
      rcases steady.call_cases call with
        ⟨next, callEq, nextStart, nextSteady⟩ |
        ⟨token, next, callEq, tokenStart, nonempty, fresh, nextSteady⟩
      · rw [callEq] at called admittedRest
        obtain ⟨later, laterEq, lengthEq, orderly⟩ := ih nextSteady admittedRest
        refine ⟨(none, next) :: later, by simp [history?, called, laterEq],
          by simp [lengthEq], .silent nextSteady.wellFormed nextStart ?_⟩
        rw [← nextStart]
        exact orderly
      · rw [callEq] at called admittedRest
        obtain ⟨later, laterEq, lengthEq, orderly⟩ := ih nextSteady admittedRest
        refine ⟨(some token, next) :: later, by simp [history?, called, laterEq],
          by simp [lengthEq], ?_⟩
        rw [← tokenStart]
        refine .emitted nextSteady.wellFormed nonempty fresh ?_
        rw [← fresh.tokenStart_eq]
        exact orderly

/-- From any offset on, any calls that stay within the offsets are carried out
without a failing look-up, and leave an orderly history. -/
theorem startAt_history?_orderly (table : Table) (offset : Nat) (calls : List Call)
    (admitted : (startAt table offset).AdmitsAll table calls) :
    ∃ history, (startAt table offset).history? table calls = some history ∧
      history.length = calls.length ∧ Orderly table offset history :=
  (startAt_steady table offset).history?_orderly admitted

/-- A caller that passes over every boundary and finishes twice. -/
def carelessCalls : List Call :=
  [.offer 'a', .offer 'b', .offer 'é', .offer 'b', .offer 'a', .finish, .finish]

/-- The second token begins where the first one ends, although `é` was not taken
back and another character was offered in its place. -/
theorem startAt_history?_orderly_careless :
    (startAt sampleTable 7).AdmitsAll sampleTable carelessCalls ∧
      ∃ history, Orderly sampleTable 7 history ∧ history.map Prod.fst =
        [none, none, some ⟨7, 8, 0⟩, some ⟨8, 9, KindId.unrecognized⟩, none, some ⟨9, 10, 0⟩,
          none] := by
  have admitted : (startAt sampleTable 7).AdmitsAll sampleTable carelessCalls := by
    decide +kernel
  obtain ⟨history, historyEq, _, orderly⟩ :=
    startAt_history?_orderly sampleTable 7 carelessCalls admitted
  refine ⟨admitted, history, orderly, ?_⟩
  have answers : ((startAt sampleTable 7).history? sampleTable carelessCalls).map
      (fun history => history.map Prod.fst) =
      some [none, none, some ⟨7, 8, 0⟩, some ⟨8, 9, KindId.unrecognized⟩, none,
        some ⟨9, 10, 0⟩, none] := by
    decide +kernel
  rw [historyEq] at answers
  exact Option.some.inj answers

end Walk

end MaximalMunch
