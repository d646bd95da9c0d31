import MaximalMunch.Proofs.Following

/-!
# Emitting tokens

A walk emits its token when it knows that the text is barren from where it
stands.  The token is then the one that longest match takes from the text
behind the start of the token, and the walk comes to rest behind the token,
with a memory that is still sound.

A walk at rest is all that is left between two tokens, so every protocol of
scanning can be reduced to the one statement about `Walk.munch`.
-/

namespace MaximalMunch

namespace Walk

/-- The open token of the walk starts behind `before`, where the text goes on
with `ahead`.  Of these characters the walk was offered those of `matched` and
`tail`, and `rest` is left. -/
structure Underway (table : Table) (before ahead : List Char) (walk : Walk)
    (matched tail rest : List Char) : Prop where
  follows : walk.Follows table matched tail
  ahead_eq : matched ++ tail ++ rest = ahead
  tokenStart_eq : walk.tokenStart = Text.byteLength before
  sound : walk.MemorySound table (before ++ ahead)

/-- The walk stands between two tokens. -/
abbrev RestsAt (table : Table) (walk : Walk) (before ahead : List Char) : Prop :=
  walk.Underway table before ahead [] [] ahead

/-- The moment at which a walk emits the token that longest match takes from the
text `ahead`. -/
structure Emission (table : Table) (before ahead : List Char) where
  /-- The walk right before it starts over. -/
  last : Walk
  matched : List Char
  tail : List Char
  rest : List Char
  word : List Char
  after : List Char
  kind : KindId
  tracks : last.Tracks table matched tail
  ahead_eq : matched ++ tail ++ rest = ahead
  tokenStart_eq : last.tokenStart = Text.byteLength before
  sound : last.MemorySound table (before ++ ahead)
  barren : table.Barren last.state rest
  split : ahead = word ++ after
  munches : table.Munches ahead word kind
  matched_lt : matched.length < 2 * word.length

namespace Emission

variable {table : Table} {before ahead : List Char}

def token (emission : Emission table before ahead) : Token :=
  ⟨Text.byteLength before, Text.byteLength before + Text.byteLength emission.word,
    emission.kind⟩

def next (emission : Emission table before ahead) : Walk :=
  emission.last.restartAt table emission.token.stop

theorem anchor_offset (emission : Emission table before ahead) :
    (emission.last.anchor table).offset = Text.byteLength (before ++ emission.matched) := by
  rw [emission.tracks.anchor_offset, emission.tokenStart_eq, Text.byteLength_append]

/-- What was passed behind the last accept is doomed. -/
theorem doomed (emission : Emission table before ahead) :
    ∀ configuration ∈ emission.last.trail,
      configuration.Doomed table (before ++ ahead) := by
  have barren := emission.barren
  rw [emission.tracks.state_eq] at barren
  have textEq : before ++ emission.matched ++ emission.tail ++ emission.rest =
      before ++ ahead := by
    simp [← emission.ahead_eq]
  intro configuration passed
  rw [← textEq]
  exact emission.tracks.idling.doomed emission.anchor_offset barren configuration passed

theorem lt_offset (emission : Emission table before ahead) :
    ∀ configuration ∈ emission.last.trail,
      Text.byteLength before < configuration.offset := by
  intro configuration passed
  have behindAnchor := emission.tracks.idling.base_lt configuration passed
  rw [emission.anchor_offset, Text.byteLength_append] at behindAnchor
  omega

/-- The text is cut behind the token. -/
theorem text_eq (emission : Emission table before ahead) :
    before ++ emission.word ++ emission.after = before ++ ahead := by
  rw [List.append_assoc, ← emission.split]

theorem restsAt (emission : Emission table before ahead) :
    emission.next.RestsAt table (before ++ emission.word) emission.after where
  follows := restartAt_follows table emission.last emission.token.stop
  ahead_eq := rfl
  tokenStart_eq := (Text.byteLength_append before emission.word).symm
  sound := by
    rw [emission.text_eq]
    exact emission.sound.restartAt emission.doomed emission.token.stop

theorem token_not_isEmpty (emission : Emission table before ahead) :
    emission.token.isEmpty = false := by
  have positive := Text.byteLength_pos emission.munches.nonempty
  simp only [Token.isEmpty, token, beq_eq_false_iff_ne]
  omega

theorem length_eq (emission : Emission table before ahead) :
    ahead.length = emission.word.length + emission.after.length := by
  have lengthEq := congrArg List.length emission.split
  rwa [List.length_append] at lengthEq

theorem length_after_lt (emission : Emission table before ahead) :
    emission.after.length < ahead.length := by
  have positive := List.length_pos_iff.mpr emission.munches.nonempty
  have lengthEq := emission.length_eq
  omega

theorem dropBytes?_eq (emission : Emission table before ahead) :
    Text.dropBytes? (emission.token.stop - emission.token.start) ahead =
      some emission.after := by
  have lengthEq : emission.token.stop - emission.token.start =
      Text.byteLength emission.word := by
    simp [token]
  rw [lengthEq]
  exact Text.dropBytes?_eq_some_iff.mpr ⟨emission.word, emission.split, rfl⟩

/-- The emitted token is the first one of repeated longest match. -/
theorem munched (emission : Emission table before ahead) {tokens : List Token}
    (others : table.Munched (Text.byteLength (before ++ emission.word))
      emission.after tokens) :
    table.Munched (Text.byteLength before) ahead (emission.token :: tokens) := by
  rw [Text.byteLength_append] at others
  exact .cons emission.split emission.munches others

/-- Repeated longest match begins with the emitted token. -/
theorem exists_eq_cons (emission : Emission table before ahead) {tokens : List Token}
    (munched : table.Munched (Text.byteLength before) ahead tokens) :
    ∃ others, tokens = emission.token :: others ∧
      table.Munched (Text.byteLength (before ++ emission.word)) emission.after others := by
  have split := emission.split
  cases munched with
  | nil => exact absurd (List.append_eq_nil_iff.mp split.symm).1 emission.munches.nonempty
  | cons otherSplit first others =>
      obtain ⟨wordEq, kindEq⟩ := first.unique emission.munches
      subst wordEq kindEq
      have sameAfter := List.append_cancel_left (otherSplit.symm.trans split)
      subst sameAfter
      rw [Text.byteLength_append]
      exact ⟨_, rfl, others⟩

end Emission

variable {table : Table} {walk : Walk} {before ahead matched tail rest : List Char}

theorem startAt_restsAt (table : Table) (before ahead : List Char) :
    (startAt table (Text.byteLength before)).RestsAt table before ahead where
  follows := startAt_follows table (Text.byteLength before)
  ahead_eq := rfl
  tokenStart_eq := rfl
  sound := startAt_memorySound table (Text.byteLength before) (before ++ ahead)

theorem Underway.cursor_eq (underway : walk.Underway table before ahead matched tail rest) :
    walk.cursor = Text.byteLength (before ++ (matched ++ tail)) := by
  rw [underway.follows.cursor_eq, underway.tokenStart_eq, Text.byteLength_append before]

theorem RestsAt.cursor_eq (rests : walk.RestsAt table before ahead) :
    walk.cursor = Text.byteLength before := by
  simpa using Underway.cursor_eq rests

theorem Underway.dropBytes?_cursor
    (underway : walk.Underway table before ahead matched tail rest) :
    Text.dropBytes? walk.cursor (before ++ ahead) = some rest := by
  rw [underway.cursor_eq]
  refine Text.dropBytes?_eq_some_iff.mpr ⟨before ++ (matched ++ tail), ?_, rfl⟩
  simp [← underway.ahead_eq]

/-- Where the text is barren from the position of the walk on, the open token
is the one that longest match takes. -/
theorem Tracks.openToken_eq (tracks : walk.Tracks table matched tail)
    (opened : walk.firstLength = Text.byteLength ((matched ++ tail ++ rest).take 1))
    (barren : table.Barren walk.state rest) (nonempty : matched ++ tail ++ rest ≠ []) :
    ∃ word after kind, matched ++ tail ++ rest = word ++ after ∧
      table.Munches (matched ++ tail ++ rest) word kind ∧
      matched.length < 2 * word.length ∧
      walk.openToken table =
        ⟨walk.tokenStart, walk.tokenStart + Text.byteLength word, kind⟩ := by
  rw [tracks.state_eq] at barren
  have barrenAnchor := tracks.idling.barren barren
  cases lastAccept : walk.lastAccept with
  | none =>
      have matchedNil := tracks.unmatched lastAccept
      have anchorEq : (walk.anchor table).state = table.start := by
        simp [anchor, lastAccept]
      subst matchedNil
      rw [anchorEq] at barrenAnchor
      simp only [List.nil_append] at nonempty opened ⊢
      obtain ⟨c, after, aheadEq⟩ := List.exists_cons_of_ne_nil nonempty
      rw [aheadEq] at barrenAnchor opened ⊢
      refine ⟨[c], after, KindId.unrecognized, rfl, barrenAnchor.munches_unrecognized,
        by simp, ?_⟩
      simp [openToken, lastAccept, opened]
  | some accept =>
      obtain ⟨matchedNonempty, accepting⟩ := tracks.accepted accept lastAccept
      have anchorEq : walk.anchor table = accept := by
        simp [anchor, lastAccept]
      have anchorRun := tracks.anchor_run
      have anchorOffset := tracks.anchor_offset
      rw [anchorEq] at barrenAnchor anchorRun anchorOffset
      obtain ⟨kind, kindEq⟩ := Table.isAccepting_iff.mp accepting
      have accepted : table.Accepts matched kind :=
        Table.accepts_iff.mpr ⟨matchedNonempty, accept.state, anchorRun, kindEq⟩
      have positive := List.length_pos_iff.mpr matchedNonempty
      rw [List.append_assoc]
      refine ⟨matched, tail ++ rest, kind, rfl, accepted.munches anchorRun barrenAnchor,
        by omega, ?_⟩
      simp [openToken, lastAccept, kindEq, anchorOffset]

/-- A walk with a sound memory that stands where the text is barren emits the
token that longest match takes. -/
theorem Tracks.emission (tracks : walk.Tracks table matched tail)
    (ahead_eq : matched ++ tail ++ rest = ahead) (nonempty : ahead ≠ [])
    (opened : walk.firstLength = Text.byteLength (ahead.take 1))
    (barren : table.Barren walk.state rest)
    (tokenStart_eq : walk.tokenStart = Text.byteLength before)
    (sound : walk.MemorySound table (before ++ ahead)) :
    ∃ emission : Emission table before ahead,
      walk.emit table = (emission.token, emission.next) ∧
      emission.last = walk ∧ emission.matched = matched ∧ emission.tail = tail := by
  subst ahead_eq
  obtain ⟨word, after, kind, split, munches, matched_lt, tokenEq⟩ :=
    tracks.openToken_eq opened barren nonempty
  let emission : Emission table before (matched ++ tail ++ rest) :=
    { last := walk
      matched := matched
      tail := tail
      rest := rest
      word := word
      after := after
      kind := kind
      tracks := tracks
      ahead_eq := rfl
      tokenStart_eq := tokenStart_eq
      sound := sound
      barren := barren
      split := split
      munches := munches
      matched_lt := matched_lt }
  refine ⟨emission, ?_, rfl, rfl, rfl⟩
  rw [emit, tokenEq, tokenStart_eq]
  rfl

/-- A blocked character tells a walk with a sound memory that the text is barren
from its position on. -/
theorem barren_of_blocks {c : Char} {passed : List Char}
    (sound : walk.MemorySound table (passed ++ c :: rest))
    (cursor_eq : walk.cursor = Text.byteLength passed)
    (blocked : walk.blocks table (walk.position.advance table c) = true) :
    table.Barren walk.state (c :: rest) := by
  simp only [blocks, Bool.or_eq_true, beq_iff_eq, Std.ExtTreeSet.contains_iff_mem] at blocked
  rcases blocked with lands | dead
  · exact .inl lands
  · have doomed := sound _ dead
    rw [List.append_cons] at doomed
    have located : (walk.position.advance table c).offset =
        Text.byteLength (passed ++ [c]) := by
      simp [Configuration.advance, position, cursor_eq]
    exact .inr ⟨doomed.1.rejecting, doomed.barren located⟩

/-- Offering the next character of the text either leaves the walk underway or
emits the token that longest match takes. -/
theorem Underway.step_cases {c : Char}
    (underway : walk.Underway table before ahead matched tail (c :: rest)) :
    (∃ next, walk.step table c = (.consumed, next) ∧ next.dead = walk.dead ∧
      next.pruneAt = walk.pruneAt ∧
      (next.Underway table before ahead (matched ++ tail ++ [c]) [] rest ∨
        next.Underway table before ahead matched (tail ++ [c]) rest)) ∨
    ∃ emission : Emission table before ahead,
      walk.step table c = (.boundary emission.token, emission.next) ∧
      emission.last = walk.noteFirst c ∧
      emission.matched = matched ∧ emission.tail = tail := by
  have cursorEq := underway.cursor_eq
  obtain ⟨follows, ahead_eq, tokenStart_eq, sound⟩ := underway
  rcases Walk.step_cases follows c with
    ⟨next, stepEq, nextStart, nextDead, nextPruneAt, extended⟩ | ⟨blocked, stepEq⟩
  · left
    rw [← nextStart] at tokenStart_eq
    rw [MemorySound, ← nextDead] at sound
    refine ⟨next, stepEq, nextDead, nextPruneAt, ?_⟩
    rcases extended with extended | extended
    · exact .inl ⟨extended, by simp [← ahead_eq], tokenStart_eq, sound⟩
    · exact .inr ⟨extended, by simp [← ahead_eq], tokenStart_eq, sound⟩
  · right
    have nonempty : ahead ≠ [] := by
      simp [← ahead_eq]
    have opened := noteFirst_firstLength follows c rest
    rw [ahead_eq] at opened
    have barren : table.Barren (walk.noteFirst c).state (c :: rest) := by
      rw [noteFirst_state]
      have passedEq : before ++ ahead = before ++ (matched ++ tail) ++ c :: rest := by
        simp [← ahead_eq]
      exact barren_of_blocks (passedEq ▸ sound) cursorEq blocked
    obtain ⟨emission, emitEq, lastEq⟩ :=
      (noteFirst_tracks follows.toTracks c).emission ahead_eq nonempty opened barren
        (by simpa using tokenStart_eq) (by rw [MemorySound, noteFirst_dead]; exact sound)
    refine ⟨emission, ?_, lastEq⟩
    rw [stepEq, emitEq]

theorem Underway.finish_of_ne_nil
    (underway : walk.Underway table before ahead matched tail []) (nonempty : ahead ≠ []) :
    ∃ emission : Emission table before ahead,
      walk.finish table = (some emission.token, emission.next) ∧
      emission.last = walk ∧ emission.matched = matched ∧ emission.tail = tail := by
  obtain ⟨follows, ahead_eq, tokenStart_eq, sound⟩ := underway
  have offered : matched ++ tail = ahead := by
    rw [← ahead_eq, List.append_nil]
  have opened := follows.firstLength_eq
  rw [offered] at opened
  have barren : table.Barren walk.state [] := trivial
  obtain ⟨emission, emitEq, lastEq⟩ :=
    follows.emission ahead_eq nonempty opened barren tokenStart_eq sound
  refine ⟨emission, ?_, lastEq⟩
  have pending : walk.isPending = true :=
    follows.isPending_iff.mpr (by rwa [offered])
  simp [finish, pending, emitEq]

theorem Underway.finish_nil (underway : walk.Underway table before [] matched tail rest) :
    walk.finish table = (none, walk) := by
  have offered : matched ++ tail = [] :=
    (List.append_eq_nil_iff.mp underway.ahead_eq).1
  have notPending : ¬ walk.isPending = true := by
    rw [underway.follows.isPending_iff, offered]
    simp
  simp [finish, notPending]

/-- Offering the rest of a text emits the token that longest match takes. -/
theorem Underway.munch (underway : walk.Underway table before ahead matched tail rest)
    (nonempty : ahead ≠ []) (steps : Nat) :
    ∃ emission : Emission table before ahead, ∃ taken,
      walk.munch table steps rest = (some emission.token, emission.next, taken) := by
  induction rest generalizing walk matched tail steps with
  | nil =>
      obtain ⟨emission, finishEq, _⟩ := underway.finish_of_ne_nil nonempty
      exact ⟨emission, steps, by simp [Walk.munch, finishEq]⟩
  | cons c rest ih =>
      rcases underway.step_cases with ⟨next, stepEq, _, _, extended⟩ | ⟨emission, stepEq, _⟩
      · have munchEq : walk.munch table steps (c :: rest) =
            next.munch table (steps + 1) rest := by
          simp [Walk.munch, stepEq]
        rw [munchEq]
        rcases extended with extended | extended
        · exact ih extended (steps + 1)
        · exact ih extended (steps + 1)
      · exact ⟨emission, steps + 1, by simp [Walk.munch, stepEq]⟩

theorem RestsAt.munch_nil (rests : walk.RestsAt table before []) (steps : Nat) :
    walk.munch table steps [] = (none, walk, steps) := by
  rw [Walk.munch, Underway.finish_nil rests]

/-- The token does not depend on what the walk remembers. -/
theorem RestsAt.munch_fst_eq (rests : walk.RestsAt table before ahead)
    {word : List Char} {kind : KindId} (munches : table.Munches ahead word kind)
    (steps : Nat) :
    (walk.munch table steps ahead).1 =
      some ⟨Text.byteLength before, Text.byteLength before + Text.byteLength word,
        kind⟩ := by
  have nonempty : ahead ≠ [] := by
    rintro rfl
    exact munches.nonempty (List.prefix_nil.mp munches.leads)
  obtain ⟨emission, taken, munchEq⟩ := Underway.munch rests nonempty steps
  obtain ⟨wordEq, kindEq⟩ := emission.munches.unique munches
  rw [munchEq, ← wordEq, ← kindEq]
  rfl

end Walk

end MaximalMunch
