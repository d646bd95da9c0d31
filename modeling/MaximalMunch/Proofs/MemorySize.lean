import MaximalMunch.Proofs.Calls
import MaximalMunch.Proofs.LinearScan

/-!
# How much a walk remembers

A walk that is driven over a text remembers only configurations up to the
furthest place where it has been.  When its memory is pruned, what survives lies
between the end of the token that was just emitted and that place.  So there
survive at most as many configurations as there are idle states for each of
these characters, and until the next pruning the memory at most doubles, or
stays below the size from which it is pruned at all.  How long the text is does
not matter.
-/

namespace MaximalMunch

/-- Number of characters between two cuts of a text, and `0` when the second one
does not lie behind the first. -/
def Text.charsBetween (start stop : Nat) (text : List Char) : Nat :=
  ((slice? start stop text).getD []).length

/-- A walk that is being driven over a text, and what was seen of it so far. -/
structure Passage where
  walk : Walk
  /-- The furthest cursor so far. -/
  furthest : Nat
  /-- The tokens emitted so far, the newest first, each with the furthest cursor
  by then. -/
  emitted : List (Token × Nat)

namespace Passage

def fresh (table : Table) : Passage where
  walk := Walk.startAt table 0
  furthest := 0
  emitted := []

/-- The call to make when the cursor is here: offer the next character of the
text, or finish when there is none.  Nothing can be done inside a character. -/
def due? (text : List Char) (cursor : Nat) : Option Call :=
  (Text.dropBytes? cursor text).map fun ahead =>
    match ahead with
    | [] => .finish
    | c :: _ => .offer c

def advance? (table : Table) (text : List Char) (passage : Passage) : Option Passage :=
  (due? text passage.walk.cursor).map fun call =>
    let (token, walk) := passage.walk.call table call
    { walk := walk
      furthest := max passage.furthest walk.cursor
      emitted := (token.map (·, passage.furthest)).toList ++ passage.emitted }

/-- A fresh walk after `count` calls. -/
def after? (table : Table) (text : List Char) : Nat → Option Passage
  | 0 => some (fresh table)
  | count + 1 => (after? table text count).bind (advance? table text)

/-- The largest number of characters by which the walk had gone beyond the end of
a token when it emitted it. -/
def overshoot (text : List Char) (passage : Passage) : Nat :=
  (passage.emitted.map fun (token, furthest) =>
    Text.charsBetween token.stop furthest text).foldr max 0

end Passage

variable {table : Table} {text before word rest : List Char}

theorem Configuration.Doomed.mem_cutsBehind {configuration : Configuration}
    (doomed : configuration.Doomed table (before ++ word ++ rest))
    (behind : Text.byteLength before < configuration.offset)
    (within : configuration.offset ≤ Text.byteLength (before ++ word)) :
    configuration.offset ∈ Text.cutsBehind (Text.byteLength before) word := by
  obtain ⟨_, reached, left, textEq, _, offsetEq, _⟩ := doomed
  rw [offsetEq] at behind within ⊢
  have reachedLeads : reached <+: before ++ word ++ rest := ⟨left, textEq.symm⟩
  have beforeLeads : before <+: before ++ word ++ rest := by
    rw [List.append_assoc]
    exact List.prefix_append before (word ++ rest)
  obtain ⟨passed, rfl⟩ :=
    Text.isPrefix_of_byteLength_le beforeLeads reachedLeads (Nat.le_of_lt behind)
  obtain ⟨more, wordEq⟩ :=
    Text.isPrefix_of_byteLength_le reachedLeads (List.prefix_append _ rest) within
  rw [List.append_assoc] at wordEq
  have passedNonempty : passed ≠ [] := by
    rintro rfl
    simp at behind
  rw [← List.append_cancel_left wordEq, Text.byteLength_append]
  exact Text.mem_cutsBehind passedNonempty _ more

/-- The newest configuration of a trail is the furthest one. -/
theorem Configuration.Idling.offset_le_newest {base : Configuration} {tail : List Char}
    {trail : List Configuration} (idling : Idling table base tail trail) :
    ∀ configuration ∈ trail, configuration.offset ≤ (newest base trail).offset := by
  have descending := idling.descending
  cases trail with
  | nil => simp
  | cons head older =>
      refine List.forall_mem_cons.mpr ⟨Nat.le_refl _, ?_⟩
      intro configuration member
      exact Nat.le_of_lt ((List.pairwise_cons.mp descending).1 configuration member)

/-- There are no more idle configurations behind an offset than idle states for
each character. -/
theorem size_le_of_mem_cutsBehind {dead : Configurations} {offset : Nat}
    (inside : ∀ configuration ∈ dead, table.IsIdle configuration.state ∧
      configuration.offset ∈ Text.cutsBehind offset word) :
    dead.size ≤ table.idleCount * word.length := by
  have nodup : dead.toList.Nodup := by
    refine Std.ExtTreeSet.distinct_toList.imp ?_
    rintro first second apart rfl
    exact apart Std.ReflCmp.compare_self
  have subset : dead.toList.toFinset ⊆ table.openAhead ∅ offset word := by
    intro configuration member
    obtain ⟨idle, cut⟩ := inside configuration (by simpa using member)
    exact Table.mem_openAhead.mpr ⟨idle, cut, by simp⟩
  calc
    dead.size = dead.toList.toFinset.card := by
      rw [List.toFinset_card_of_nodup nodup, Std.ExtTreeSet.length_toList]
    _ ≤ (table.openAhead ∅ offset word).card := Finset.card_le_card subset
    _ ≤ table.idleCount * word.length := table.card_openAhead_le ∅ offset word

/-- Between two cuts of a text there are no more doomed configurations than idle
states for each character. -/
theorem size_le_charsBetween {dead : Configurations} {start stop : Nat}
    {afterStart afterStop : List Char}
    (startCut : Text.dropBytes? start text = some afterStart)
    (stopCut : Text.dropBytes? stop text = some afterStop)
    (inside : ∀ configuration ∈ dead, configuration.Doomed table text ∧
      start < configuration.offset ∧ configuration.offset ≤ stop) :
    dead.size ≤ table.idleCount * Text.charsBetween start stop text := by
  by_cases ordered : start ≤ stop
  · obtain ⟨before, startEq, rfl⟩ := Text.dropBytes?_eq_some_iff.mp startCut
    obtain ⟨reached, stopEq, rfl⟩ := Text.dropBytes?_eq_some_iff.mp stopCut
    obtain ⟨word, rfl⟩ := Text.isPrefix_of_byteLength_le
      ⟨afterStart, startEq.symm⟩ ⟨afterStop, stopEq.symm⟩ ordered
    have sliced : Text.slice? (Text.byteLength before) (Text.byteLength (before ++ word)) text =
        some word :=
      Text.slice?_eq_some_iff.mpr
        ⟨before, afterStop, stopEq, rfl, (Text.byteLength_append before word).symm⟩
    rw [Text.charsBetween, sliced, Option.getD_some]
    apply size_le_of_mem_cutsBehind
    intro configuration member
    obtain ⟨doomed, behind, within⟩ := inside configuration member
    exact ⟨doomed.1, Configuration.Doomed.mem_cutsBehind (stopEq ▸ doomed) behind within⟩
  · have nothing : ∀ configuration, configuration ∉ dead := by
      intro configuration member
      obtain ⟨_, behind, within⟩ := inside configuration member
      omega
    have deadEmpty : dead = ∅ := Std.ExtTreeSet.eq_empty_iff_forall_not_mem.mpr nothing
    simp [deadEmpty]

namespace Walk

variable {walk : Walk} {dead : Configurations} {limit offset bound : Nat}

/-- After a pruning the memory is no larger than its next limit. -/
theorem size_prune_le : (prune dead limit offset).1.size ≤ (prune dead limit offset).2 := by
  rw [prune]
  split
  case isTrue =>
    simp only
    omega
  case isFalse small => exact Nat.le_of_not_lt small

theorem snd_prune_le (limitLe : limit ≤ bound) (floorLe : pruneFloor ≤ bound)
    (keptLe : 2 * (dead.filter fun configuration => offset < configuration.offset).size ≤ bound) :
    (prune dead limit offset).2 ≤ bound := by
  rw [prune]
  split
  case isTrue => exact Nat.max_le.mpr ⟨by omega, floorLe⟩
  case isFalse => exact limitLe

/-- The trail ends where the walk stands. -/
theorem Tracks.offset_le_cursor {matched tail : List Char} (tracks : walk.Tracks table matched tail) :
    ∀ configuration ∈ walk.trail, configuration.offset ≤ walk.cursor := by
  have cursorEq : walk.cursor = (Configuration.newest (walk.anchor table) walk.trail).offset :=
    congrArg Configuration.offset tracks.position_eq
  rw [cursorEq]
  exact tracks.idling.offset_le_newest

/-- Following the text, a call either leaves the memory and its limit alone, or it
emits a token. -/
theorem Underway.call_cases {before ahead matched tail rest : List Char}
    (underway : walk.Underway table before ahead matched tail rest) {call : Call}
    (due : Passage.due? (before ++ ahead) walk.cursor = some call) :
    (∃ next, walk.call table call = (none, next) ∧ next.dead = walk.dead ∧
      next.pruneAt = walk.pruneAt) ∨
    ∃ emission : Emission table before ahead,
      walk.call table call = (some emission.token, emission.next) ∧
      emission.last.dead = walk.dead ∧ emission.last.trail = walk.trail ∧
      emission.last.pruneAt = walk.pruneAt := by
  rw [Passage.due?, underway.dropBytes?_cursor, Option.map_some, Option.some.injEq] at due
  cases rest with
  | nil =>
      obtain rfl := due
      by_cases nothing : ahead = []
      · subst nothing
        exact .inl ⟨walk, underway.finish_nil, rfl, rfl⟩
      · obtain ⟨emission, finishEq, lastEq, _⟩ := underway.finish_of_ne_nil nothing
        exact .inr ⟨emission, finishEq, by rw [lastEq], by rw [lastEq], by rw [lastEq]⟩
  | cons c rest =>
      obtain rfl := due
      rcases underway.step_cases with
        ⟨next, stepEq, deadEq, pruneAtEq, _⟩ | ⟨emission, stepEq, lastEq, _⟩
      · exact .inl ⟨next, by rw [call, stepEq]; rfl, deadEq, pruneAtEq⟩
      · refine .inr ⟨emission, by rw [call, stepEq]; rfl, ?_, ?_, ?_⟩
        · rw [lastEq, noteFirst_dead]
        · rw [lastEq, noteFirst_trail]
        · rw [lastEq, noteFirst_pruneAt]

end Walk

/-- What the memory of a walk may grow to when its tokens were overshot by at most
`overshoot` characters. -/
def Table.memoryBound (table : Table) (overshoot : Nat) : Nat :=
  max Walk.pruneFloor (2 * table.idleCount * overshoot)

theorem Table.memoryBound_mono (table : Table) {less more : Nat} (le : less ≤ more) :
    table.memoryBound less ≤ table.memoryBound more :=
  max_le_max (Nat.le_refl _) (Nat.mul_le_mul_left _ le)

theorem Driven.call {walk : Walk} {steps : Nat} {call : Call} (driven : Driven table text walk steps)
    (due : Passage.due? text walk.cursor = some call) :
    ∃ taken, Driven table text (walk.call table call).2 taken := by
  obtain ⟨ahead, ended, callEq⟩ := Option.map_eq_some_iff.mp due
  cases ahead with
  | nil =>
      obtain rfl := callEq
      exact ⟨steps, driven.finish ended⟩
  | cons c left =>
      obtain rfl := callEq
      exact ⟨steps + 1, driven.step ended⟩

/-- The cursor is never inside a character. -/
theorem Driven.exists_dropBytes? {walk : Walk} {steps : Nat}
    (driven : Driven table text walk steps) :
    ∃ rest, Text.dropBytes? walk.cursor text = some rest := by
  obtain ⟨_, _, _, _, rest, rfl, underway⟩ := driven.exists_underway
  exact ⟨rest, underway.dropBytes?_cursor⟩

namespace Passage

variable {passage : Passage}

/-- The walk has nowhere been beyond its furthest cursor, and its memory is within
a limit that is within the bound. -/
structure Confined (table : Table) (text : List Char) (passage : Passage) : Prop where
  driven : ∃ steps, Driven table text passage.walk steps
  cursor_le : passage.walk.cursor ≤ passage.furthest
  furthest_cut : ∃ rest, Text.dropBytes? passage.furthest text = some rest
  dead_le : ∀ configuration ∈ passage.walk.dead, configuration.offset ≤ passage.furthest
  size_le : passage.walk.dead.size ≤ passage.walk.pruneAt
  pruneAt_le : passage.walk.pruneAt ≤ table.memoryBound (passage.overshoot text)

theorem fresh_confined (table : Table) (text : List Char) : (fresh table).Confined table text where
  driven := ⟨0, .fresh⟩
  cursor_le := Nat.le_refl 0
  furthest_cut := ⟨text, by cases text <;> rfl⟩
  dead_le configuration member := by simp [fresh, Walk.startAt] at member
  size_le := Nat.zero_le _
  pruneAt_le := Nat.le_max_left _ _

/-- There always is a call to make. -/
theorem Confined.exists_due (confined : passage.Confined table text) :
    ∃ call, due? text passage.walk.cursor = some call := by
  obtain ⟨_, driven⟩ := confined.driven
  obtain ⟨rest, cut⟩ := driven.exists_dropBytes?
  exact ⟨_, by rw [due?, cut, Option.map_some]⟩

section Emission

variable {ahead : List Char}

/-- What survives the emission of a token lies between its end and the furthest
cursor. -/
theorem Confined.size_kept_le (confined : passage.Confined table text)
    (textEq : text = before ++ ahead) (emission : Walk.Emission table before ahead)
    (deadEq : emission.last.dead = passage.walk.dead)
    (trailEq : emission.last.trail = passage.walk.trail)
    (trail_le : ∀ configuration ∈ passage.walk.trail,
      configuration.offset ≤ passage.walk.cursor) :
    ((passage.walk.dead.insertMany passage.walk.trail).filter fun configuration =>
        emission.token.stop < configuration.offset).size ≤
      table.idleCount * Text.charsBetween emission.token.stop passage.furthest text := by
  obtain ⟨afterFurthest, furthestCut⟩ := confined.furthest_cut
  have stopCut : Text.dropBytes? emission.token.stop text = some emission.after := by
    rw [textEq, Text.dropBytes?_eq_some_iff]
    refine ⟨before ++ emission.word, ?_, Text.byteLength_append before emission.word⟩
    rw [emission.text_eq]
  apply size_le_charsBetween stopCut furthestCut
  intro configuration kept
  obtain ⟨member, behind⟩ := Std.ExtTreeSet.mem_filter.mp kept
  simp only [Std.ExtTreeSet.get_eq, decide_eq_true_eq] at behind
  rw [textEq]
  rcases Std.ExtTreeSet.mem_insertMany_list.mp member with dead | passed
  · exact ⟨emission.sound configuration (deadEq ▸ dead), behind,
      confined.dead_le configuration dead⟩
  · have passedTrail : configuration ∈ passage.walk.trail := by simpa using passed
    exact ⟨emission.doomed configuration (trailEq ▸ passedTrail), behind,
      (trail_le configuration passedTrail).trans confined.cursor_le⟩

/-- The next limit stays within the bound when the token that is emitted counts as
well. -/
theorem Confined.pruneAt_next_le (confined : passage.Confined table text)
    (textEq : text = before ++ ahead) (emission : Walk.Emission table before ahead)
    (deadEq : emission.last.dead = passage.walk.dead)
    (trailEq : emission.last.trail = passage.walk.trail)
    (pruneAtEq : emission.last.pruneAt = passage.walk.pruneAt)
    (trail_le : ∀ configuration ∈ passage.walk.trail,
      configuration.offset ≤ passage.walk.cursor) :
    emission.next.pruneAt ≤ table.memoryBound
      (max (Text.charsBetween emission.token.stop passage.furthest text)
        (passage.overshoot text)) := by
  have kept_le := confined.size_kept_le textEq emission deadEq trailEq trail_le
  apply Walk.snd_prune_le _ (Nat.le_max_left _ _)
  · rw [deadEq, trailEq]
    calc
      _ ≤ 2 * (table.idleCount *
          Text.charsBetween emission.token.stop passage.furthest text) :=
        Nat.mul_le_mul_left 2 kept_le
      _ = 2 * table.idleCount * Text.charsBetween emission.token.stop passage.furthest text :=
        (Nat.mul_assoc _ _ _).symm
      _ ≤ table.memoryBound (Text.charsBetween emission.token.stop passage.furthest text) :=
        Nat.le_max_right _ _
      _ ≤ _ := table.memoryBound_mono (Nat.le_max_left _ _)
  · rw [pruneAtEq]
    exact confined.pruneAt_le.trans (table.memoryBound_mono (Nat.le_max_right _ _))

end Emission

/-- One call preserves the confinement: it either leaves the memory alone, or it
emits a token and what is then kept is within the bound. -/
theorem Confined.advance? (confined : passage.Confined table text) :
    ∃ next, passage.advance? table text = some next ∧ next.Confined table text := by
  obtain ⟨call, due⟩ := confined.exists_due
  obtain ⟨steps, driven⟩ := confined.driven
  obtain ⟨before, ahead, matched, tail, rest, textEq, underway⟩ := driven.exists_underway
  obtain ⟨taken, nextDriven⟩ := driven.call due
  have trail_le := underway.follows.offset_le_cursor
  have furthestCut : ∃ rest, Text.dropBytes?
      (max passage.furthest (passage.walk.call table call).2.cursor) text = some rest := by
    rcases max_choice passage.furthest (passage.walk.call table call).2.cursor with same | moved
    · rw [same]
      exact confined.furthest_cut
    · rw [moved]
      exact nextDriven.exists_dropBytes?
  refine ⟨_, by rw [Passage.advance?, due, Option.map_some], ?_⟩
  rcases underway.call_cases (textEq ▸ due) with
    ⟨next, callEq, deadEq, pruneAtEq⟩ | ⟨emission, callEq, deadEq, trailEq, pruneAtEq⟩
  · rw [callEq] at nextDriven furthestCut ⊢
    exact {
      driven := ⟨taken, nextDriven⟩
      cursor_le := Nat.le_max_right _ _
      furthest_cut := furthestCut
      dead_le := fun configuration member =>
        (confined.dead_le configuration (deadEq ▸ member)).trans (Nat.le_max_left _ _)
      size_le := by
        rw [deadEq, pruneAtEq]
        exact confined.size_le
      pruneAt_le := by
        rw [pruneAtEq]
        exact confined.pruneAt_le }
  · rw [callEq] at nextDriven furthestCut ⊢
    exact {
      driven := ⟨taken, nextDriven⟩
      cursor_le := Nat.le_max_right _ _
      furthest_cut := furthestCut
      dead_le := by
        intro configuration member
        refine le_trans ?_ (Nat.le_max_left _ _)
        rcases Walk.mem_or_mem_of_mem_restartAt member with dead | passed
        · exact confined.dead_le configuration (deadEq ▸ dead)
        · exact (trail_le configuration (trailEq ▸ passed)).trans confined.cursor_le
      size_le := Walk.size_prune_le
      pruneAt_le :=
        confined.pruneAt_next_le textEq emission deadEq trailEq pruneAtEq trail_le }

theorem after?_confined (table : Table) (text : List Char) (count : Nat) :
    ∃ passage, after? table text count = some passage ∧ passage.Confined table text := by
  induction count with
  | zero => exact ⟨fresh table, rfl, fresh_confined table text⟩
  | succ count ih =>
      obtain ⟨passage, afterEq, confined⟩ := ih
      obtain ⟨next, nextEq, nextConfined⟩ := confined.advance?
      exact ⟨next, by rw [after?, afterEq, Option.bind_some, nextEq], nextConfined⟩

/-- However long the text is, a walk that is driven over it never remembers more
than the floor of pruning or, when that is more, twice as many configurations as
there are idle states for each character by which it overshot a token. -/
theorem after?_dead_size_le (table : Table) (text : String) (count : Nat) :
    ∃ passage, after? table text.toList count = some passage ∧
      passage.walk.dead.size ≤
        max Walk.pruneFloor (2 * table.idleCount * passage.overshoot text.toList) := by
  obtain ⟨passage, afterEq, confined⟩ := after?_confined table text.toList count
  exact ⟨passage, afterEq, confined.size_le.trans confined.pruneAt_le⟩

end Passage

end MaximalMunch
