import MaximalMunch.Proofs.MemorySize

/-!
# Dead ends

A walk that is driven over a text remembers only configurations from which the
text leads to no accepting state.  It may well forget them again, but it never
comes back to one of them: as long as it remembers a configuration it does not
enter it, and it forgets only what it has left behind.

The second half does not depend on the text.  What carries it from call to call
is that a configuration which was dead once is either dead still or lies no
further than the start of the open token.
-/

namespace MaximalMunch

variable {table : Table} {configuration : Configuration}

namespace Walk

/-- The configuration is remembered as dead, or the open token starts behind
it or right at it. -/
def Bars (walk : Walk) (configuration : Configuration) : Prop :=
  configuration ∈ walk.dead ∨ configuration.offset ≤ walk.tokenStart

variable {walk next : Walk} {matched tail : List Char}

/-- What is forgotten at the end of a token does not lie behind it. -/
theorem Bars.restartAt (bars : walk.Bars configuration) {offset : Nat}
    (forward : walk.tokenStart ≤ offset) :
    (walk.restartAt table offset).Bars configuration := by
  rcases bars with dead | passed
  · by_cases behind : offset < configuration.offset
    · exact .inl (mem_restartAt_of_lt (.inl dead) behind)
    · exact .inr (Nat.le_of_not_lt behind)
  · exact .inr (passed.trans forward)

theorem Bars.emit (bars : walk.Bars configuration) (tracks : walk.Tracks table matched tail) :
    (walk.emit table).2.Bars configuration :=
  bars.restartAt tracks.tokenStart_le_stop

theorem Bars.noteFirst (bars : walk.Bars configuration) (c : Char) :
    (walk.noteFirst c).Bars configuration := by
  rw [Bars, noteFirst_dead, noteFirst_tokenStart]
  exact bars

/-- No call lifts the bar. -/
theorem Bars.call (bars : walk.Bars configuration) (follows : walk.Follows table matched tail)
    (call : Call) : (walk.call table call).2.Bars configuration := by
  cases call with
  | offer c =>
      rw [Walk.call]
      rcases step_cases follows c with ⟨next, stepEq, startEq, deadEq, _⟩ | ⟨_, stepEq⟩
      · rw [stepEq, Bars, deadEq, startEq]
        exact bars
      · rw [stepEq]
        exact (bars.noteFirst c).emit (noteFirst_tracks follows.toTracks c)
  | finish =>
      rw [Walk.call, finish]
      split
      · exact bars.emit follows.toTracks
      · exact bars

/-- A character that is consumed leads further than any offset at or before the
start of the token, and not to a dead configuration. -/
theorem Bars.position_ne (bars : walk.Bars configuration)
    (follows : walk.Follows table matched tail) {c : Char}
    (stepEq : walk.step table c = (.consumed, next)) : next.position ≠ configuration := by
  rintro rfl
  obtain ⟨positionEq, alive⟩ := step_eq_consumed stepEq
  rw [← positionEq] at alive
  rcases bars with dead | passed
  · have blocked : walk.blocks table next.position = true := by
      simp [blocks, dead]
    rw [alive] at blocked
    cases blocked
  · have ahead := follows.tokenStart_lt_advance c
    rw [← positionEq] at ahead
    exact Nat.not_le_of_lt ahead passed

end Walk

/-- In bytes: a doomed configuration lies at a cut of the text behind its start. -/
theorem Configuration.Doomed.located {text : List Char}
    (doomed : configuration.Doomed table text) :
    0 < configuration.offset ∧ configuration.offset ≤ Text.byteLength text ∧
      ∃ rest, Text.dropBytes? configuration.offset text = some rest ∧
        table.Barren configuration.state rest := by
  obtain ⟨_, before, rest, rfl, nonempty, offsetEq, barren⟩ := doomed
  rw [offsetEq]
  exact ⟨Text.byteLength_pos nonempty,
    Text.byteLength_le_of_isPrefix (List.prefix_append before rest),
    rest, Text.dropBytes?_append before rest, barren⟩

namespace Passage

/-- The call that follows after `count` of them offers a character, which is
consumed and leads to the configuration. -/
def Enters (table : Table) (text : List Char) (count : Nat) (configuration : Configuration) :
    Prop :=
  ∃ passage c next, after? table text count = some passage ∧
    due? text passage.walk.cursor = some (.offer c) ∧
    passage.walk.step table c = (.consumed, next) ∧ next.position = configuration

variable {text : List Char} {passage : Passage} {count : Nat}

theorem exists_underway_of_after? (afterEq : after? table text count = some passage) :
    ∃ before ahead matched tail rest, text = before ++ ahead ∧
      passage.walk.Underway table before ahead matched tail rest := by
  obtain ⟨found, foundEq, confined⟩ := after?_confined table text count
  obtain rfl := Option.some.inj (afterEq.symm.trans foundEq)
  obtain ⟨_, driven⟩ := confined.driven
  exact driven.exists_underway

theorem doomed_of_after? (afterEq : after? table text count = some passage)
    (dead : configuration ∈ passage.walk.dead) : configuration.Doomed table text := by
  obtain ⟨_, _, _, _, _, rfl, underway⟩ := exists_underway_of_after? afterEq
  exact underway.sound configuration dead

/-- A bar stays for the rest of the drive. -/
theorem bars_of_after? (afterEq : after? table text count = some passage)
    (bars : passage.walk.Bars configuration) {laterCount : Nat} (ordered : count ≤ laterCount)
    {later : Passage} (laterEq : after? table text laterCount = some later) :
    later.walk.Bars configuration := by
  induction ordered generalizing later with
  | refl =>
      obtain rfl := Option.some.inj (afterEq.symm.trans laterEq)
      exact bars
  | step _ ih =>
      obtain ⟨between, betweenEq, advanceEq⟩ := Option.bind_eq_some_iff.mp laterEq
      obtain ⟨_, _, _, _, _, _, underway⟩ := exists_underway_of_after? betweenEq
      obtain ⟨call, _, rfl⟩ := Option.map_eq_some_iff.mp advanceEq
      exact (ih betweenEq).call underway.follows call

theorem not_enters_of_bars (afterEq : after? table text count = some passage)
    (bars : passage.walk.Bars configuration) : ¬ Enters table text count configuration := by
  rintro ⟨found, c, next, foundEq, _, stepEq, positionEq⟩
  obtain rfl := Option.some.inj (afterEq.symm.trans foundEq)
  obtain ⟨_, _, _, _, _, _, underway⟩ := exists_underway_of_after? afterEq
  exact bars.position_ne underway.follows stepEq positionEq

/-- Wherever a walk that is driven over a text stands, it remembers only
configurations at cuts of the text from which the text is barren.  None of them is
entered from then on, whether the walk still remembers it by that time or has
forgotten it. -/
theorem after?_dead_sound (table : Table) (text : String) (count : Nat) :
    ∃ passage, after? table text.toList count = some passage ∧
      ∀ configuration ∈ passage.walk.dead,
        table.IsIdle configuration.state ∧
        (0 < configuration.offset ∧ configuration.offset ≤ text.utf8ByteSize ∧
          ∃ rest, Text.dropBytes? configuration.offset text.toList = some rest ∧
            table.Barren configuration.state rest) ∧
        ∀ laterCount ≥ count, ¬ Enters table text.toList laterCount configuration := by
  obtain ⟨passage, afterEq, _⟩ := after?_confined table text.toList count
  refine ⟨passage, afterEq, ?_⟩
  intro configuration dead
  have doomed := doomed_of_after? afterEq dead
  refine ⟨doomed.1, ?_, ?_⟩
  · rw [← Text.byteLength_toList]
    exact doomed.located
  · intro laterCount ordered
    obtain ⟨later, laterEq, _⟩ := after?_confined table text.toList laterCount
    exact not_enters_of_bars laterEq (bars_of_after? afterEq (.inl dead) ordered laterEq)

/-- Twice the walk reads `b` behind an accepted `a`, and finds no `c` after it.  The
second call of all enters a configuration that is dead in the end. -/
example : Enters sampleTable "abab".toList 1 ⟨3, 2⟩ :=
  ⟨_, 'b', _, rfl, rfl, rfl, rfl⟩

example : ((after? sampleTable "abab".toList 8).map fun passage => passage.walk.dead.toList) =
    some [⟨3, 2⟩, ⟨3, 4⟩] := by
  rfl

end Passage

end MaximalMunch
