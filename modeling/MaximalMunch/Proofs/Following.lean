import MaximalMunch.Proofs.LongestMatch
import MaximalMunch.Proofs.Trail

/-!
# What a walk knows

The characters offered to a walk since the start of its open token fall into
two parts: those up to the last accept, and a tail that was read behind it.
`Walk.Tracks` says how each field of the walk is determined by the two parts,
and every step keeps it, whatever characters are offered.

The memory is another matter, because it speaks about characters not yet
offered.  It is sound for a text when each of its configurations is doomed in
that text.  A walk with a sound memory that meets the error state, a dead
configuration or the end of the text knows that the text is barren from there
on.  Hence the token it emits is the one that longest match takes.
-/

namespace MaximalMunch

namespace Walk

def position (walk : Walk) : Configuration :=
  ⟨walk.state, walk.cursor⟩

/-- The last accept of the open token, or else the start of the token. -/
def anchor (walk : Walk) (table : Table) : Configuration :=
  walk.lastAccept.getD ⟨table.start, walk.tokenStart⟩

/-- Since the start of the open token the walk was offered the characters of
`matched`, up to the last accept, and then those of `tail`. -/
structure Tracks (table : Table) (walk : Walk) (matched tail : List Char) : Prop where
  anchor_offset : (walk.anchor table).offset = walk.tokenStart + Text.byteLength matched
  anchor_run : table.run? table.start matched = some (walk.anchor table).state
  unmatched : walk.lastAccept = none → matched = []
  accepted : ∀ accept, walk.lastAccept = some accept →
    matched ≠ [] ∧ table.isAccepting accept.state = true
  idling : Configuration.Idling table (walk.anchor table) tail walk.trail
  position_eq : walk.position = Configuration.newest (walk.anchor table) walk.trail
  fresh : ∀ configuration ∈ walk.trail, configuration ∉ walk.dead

/-- The walk also knows the length of the first of these characters. -/
structure Follows (table : Table) (walk : Walk) (matched tail : List Char) : Prop
    extends Tracks table walk matched tail where
  firstLength_eq : walk.firstLength = Text.byteLength ((matched ++ tail).take 1)

/-- Every dead configuration is doomed in the text. -/
def MemorySound (table : Table) (text : List Char) (walk : Walk) : Prop :=
  ∀ configuration ∈ walk.dead, configuration.Doomed table text

variable {table : Table} {walk : Walk} {matched tail : List Char}

theorem Tracks.cursor_eq (tracks : walk.Tracks table matched tail) :
    walk.cursor = walk.tokenStart + Text.byteLength (matched ++ tail) := by
  have cursorEq : walk.cursor =
      (Configuration.newest (walk.anchor table) walk.trail).offset :=
    congrArg Configuration.offset tracks.position_eq
  rw [cursorEq, tracks.idling.offset_eq, tracks.anchor_offset, Text.byteLength_append,
    Nat.add_assoc]

/-- Whatever character comes next, it leads behind the start of the open token. -/
theorem Tracks.tokenStart_lt_advance (tracks : walk.Tracks table matched tail) (c : Char) :
    walk.tokenStart < (walk.position.advance table c).offset := by
  have size := c.utf8Size_pos
  simp only [Configuration.advance, position, tracks.cursor_eq]
  omega

theorem Tracks.state_eq (tracks : walk.Tracks table matched tail) :
    walk.state = (Configuration.newest (walk.anchor table) walk.trail).state :=
  congrArg Configuration.state tracks.position_eq

theorem Tracks.run?_eq (tracks : walk.Tracks table matched tail) :
    table.run? table.start (matched ++ tail) = some walk.state := by
  rw [Table.run?_append, tracks.anchor_run, Option.bind_some, tracks.idling.run?_eq,
    tracks.state_eq]

theorem Tracks.cursor_eq_tokenStart_iff (tracks : walk.Tracks table matched tail) :
    walk.cursor = walk.tokenStart ↔ matched ++ tail = [] := by
  rw [tracks.cursor_eq, ← Text.byteLength_eq_zero]
  omega

theorem Tracks.isPending_iff (tracks : walk.Tracks table matched tail) :
    walk.isPending = true ↔ matched ++ tail ≠ [] := by
  have cursorEq := tracks.cursor_eq
  simp only [isPending, decide_eq_true_eq]
  constructor
  · intro pending empty
    have resting := tracks.cursor_eq_tokenStart_iff.mpr empty
    omega
  · intro nonempty
    have offered := Text.byteLength_pos nonempty
    omega

theorem startAt_follows (table : Table) (offset : Nat) :
    (startAt table offset).Follows table [] [] where
  anchor_offset := rfl
  anchor_run := rfl
  unmatched _ := rfl
  accepted _ accepts := nomatch accepts
  idling := .nil
  position_eq := rfl
  fresh _ member := nomatch member
  firstLength_eq := rfl

theorem startAt_memorySound (table : Table) (offset : Nat) (text : List Char) :
    (startAt table offset).MemorySound table text := by
  intro configuration member
  simp [startAt] at member

theorem restartAt_follows (table : Table) (walk : Walk) (offset : Nat) :
    (walk.restartAt table offset).Follows table [] [] where
  anchor_offset := rfl
  anchor_run := rfl
  unmatched _ := rfl
  accepted _ accepts := nomatch accepts
  idling := .nil
  position_eq := rfl
  fresh _ member := nomatch member
  firstLength_eq := rfl

/-- Emitting a token keeps a sound memory sound when the trail is doomed. -/
theorem MemorySound.restartAt {text : List Char} (sound : walk.MemorySound table text)
    (doomed : ∀ configuration ∈ walk.trail, configuration.Doomed table text)
    (offset : Nat) : (walk.restartAt table offset).MemorySound table text := by
  intro configuration member
  rcases mem_or_mem_of_mem_restartAt member with dead | passed
  · exact sound configuration dead
  · exact doomed configuration passed

@[simp]
theorem noteFirst_state (walk : Walk) (c : Char) :
    (walk.noteFirst c).state = walk.state := by
  rw [noteFirst]
  split <;> rfl

@[simp]
theorem noteFirst_tokenStart (walk : Walk) (c : Char) :
    (walk.noteFirst c).tokenStart = walk.tokenStart := by
  rw [noteFirst]
  split <;> rfl

@[simp]
theorem noteFirst_lastAccept (walk : Walk) (c : Char) :
    (walk.noteFirst c).lastAccept = walk.lastAccept := by
  rw [noteFirst]
  split <;> rfl

@[simp]
theorem noteFirst_dead (walk : Walk) (c : Char) :
    (walk.noteFirst c).dead = walk.dead := by
  rw [noteFirst]
  split <;> rfl

@[simp]
theorem noteFirst_trail (walk : Walk) (c : Char) :
    (walk.noteFirst c).trail = walk.trail := by
  rw [noteFirst]
  split <;> rfl

@[simp]
theorem noteFirst_pruneAt (walk : Walk) (c : Char) :
    (walk.noteFirst c).pruneAt = walk.pruneAt := by
  rw [noteFirst]
  split <;> rfl

@[simp]
theorem noteFirst_blocks (walk : Walk) (table : Table) (c : Char)
    (target : Configuration) :
    (walk.noteFirst c).blocks table target = walk.blocks table target := by
  simp [blocks]

theorem noteFirst_tracks (tracks : walk.Tracks table matched tail) (c : Char) :
    (walk.noteFirst c).Tracks table matched tail := by
  rw [noteFirst]
  split
  · exact { tracks with }
  · exact tracks

theorem noteFirst_firstLength (follows : walk.Follows table matched tail) (c : Char)
    (rest : List Char) :
    (walk.noteFirst c).firstLength =
      Text.byteLength ((matched ++ tail ++ c :: rest).take 1) := by
  rw [noteFirst]
  split
  case isTrue opens =>
    rw [follows.cursor_eq_tokenStart_iff.mp opens]
    rfl
  case isFalse inside =>
    have nonempty : 1 ≤ (matched ++ tail).length :=
      List.length_pos_iff.mpr (mt follows.cursor_eq_tokenStart_iff.mpr inside)
    rw [follows.firstLength_eq, List.take_append_of_le_length nonempty]

/-- A character that leads to an accepting state extends the match by the whole
tail. -/
theorem enter_follows_of_accepting (follows : walk.Follows table matched tail) {c : Char}
    (lives : table.transition walk.state c ≠ table.error)
    (accepting : table.isAccepting (table.transition walk.state c) = true) :
    ((walk.noteFirst c).enter (walk.position.advance table c) true).Follows table
      (matched ++ tail ++ [c]) [] where
  anchor_offset := by
    simp [enter, anchor, position, Configuration.advance, follows.cursor_eq, Nat.add_assoc]
  anchor_run := by
    rw [Table.run?_append, follows.run?_eq, Option.bind_some, Table.run?_singleton lives]
    rfl
  unmatched nothing := nomatch nothing
  accepted accept accepts := by
    simp only [enter, if_true, Option.some.injEq] at accepts
    exact ⟨by simp, accepts ▸ accepting⟩
  idling := .nil
  position_eq := rfl
  fresh _ member := nomatch member
  firstLength_eq := by
    rw [List.append_nil]
    exact noteFirst_firstLength follows c []

/-- A character that leads to an idle configuration which is not dead extends
the tail. -/
theorem enter_follows_of_idle (follows : walk.Follows table matched tail) {c : Char}
    (idle : table.IsIdle (table.transition walk.state c))
    (alive : walk.position.advance table c ∉ walk.dead) :
    ((walk.noteFirst c).enter (walk.position.advance table c) false).Follows table
      matched (tail ++ [c]) where
  anchor_offset := by
    simpa [enter, anchor] using follows.anchor_offset
  anchor_run := by
    simpa [enter, anchor] using follows.anchor_run
  unmatched nothing := follows.unmatched (by simpa [enter] using nothing)
  accepted accept accepts := follows.accepted accept (by simpa [enter] using accepts)
  idling := by
    have extended := Configuration.Idling.snoc follows.idling (c := c)
      (by rw [← follows.position_eq]; exact idle)
    simpa [enter, anchor, follows.position_eq] using extended
  position_eq := rfl
  fresh := by
    simp only [enter, noteFirst_trail, noteFirst_dead]
    exact List.forall_mem_cons.mpr ⟨alive, follows.fresh⟩
  firstLength_eq := by
    rw [← List.append_assoc]
    exact noteFirst_firstLength follows c []

/-- What a step does.  A character that meets neither the error state nor a dead
configuration is consumed, and then it extends either the match or the tail;
any other character makes the walk emit its token. -/
theorem step_cases (follows : walk.Follows table matched tail) (c : Char) :
    (∃ next, walk.step table c = (.consumed, next) ∧
      next.tokenStart = walk.tokenStart ∧ next.dead = walk.dead ∧
      next.pruneAt = walk.pruneAt ∧
      (next.Follows table (matched ++ tail ++ [c]) [] ∨
        next.Follows table matched (tail ++ [c]))) ∨
    (walk.blocks table (walk.position.advance table c) = true ∧
      walk.step table c = (.boundary ((walk.noteFirst c).emit table).1,
        ((walk.noteFirst c).emit table).2)) := by
  have blocksEq := noteFirst_blocks walk table c (walk.position.advance table c)
  by_cases blocked : walk.blocks table (walk.position.advance table c) = true
  · right
    refine ⟨blocked, ?_⟩
    rw [← blocksEq] at blocked
    exact if_pos blocked
  · left
    have stepEq : walk.step table c = (.consumed,
        (walk.noteFirst c).enter (walk.position.advance table c)
          (table.isAccepting (table.transition walk.state c))) := by
      rw [← blocksEq] at blocked
      exact if_neg blocked
    simp only [blocks, Bool.or_eq_true, beq_iff_eq, not_or,
      Std.ExtTreeSet.contains_iff_mem] at blocked
    obtain ⟨lives, alive⟩ := blocked
    refine ⟨_, stepEq, ?_⟩
    cases accepting : table.isAccepting (table.transition walk.state c) with
    | true =>
        exact ⟨by simp [enter], by simp [enter], by simp [enter],
          .inl (enter_follows_of_accepting follows lives accepting)⟩
    | false =>
        exact ⟨by simp [enter], by simp [enter], by simp [enter],
          .inr (enter_follows_of_idle follows
            ⟨Table.transition_lt walk.state c, accepting, lives⟩ alive)⟩

end Walk

end MaximalMunch
