import MaximalMunch.Proofs.Drive
import MaximalMunch.Proofs.Tokenize
import MaximalMunch.Scan.Effort
import Mathlib.Data.Finset.Prod

/-!
# Scans are linear

The steps of a token are paid from two accounts.  Each character of the token
pays two of them.  The others were taken behind its last accept, and each of
these is paid by the configuration it entered: an idle configuration ahead
which was not dead before.  Once the token is emitted, that configuration is
dead or lies behind, and never pays again.  So a whole scan takes at most two
steps for each character, and one for each pair of an idle state and a cut.
-/

namespace MaximalMunch

namespace Text

/-- The cuts of a text that starts at `offset`, its start excluded. -/
def cutsBehind (offset : Nat) : List Char → List Nat
  | [] => []
  | c :: rest => (offset + c.utf8Size) :: cutsBehind (offset + c.utf8Size) rest

theorem length_cutsBehind (offset : Nat) (text : List Char) :
    (cutsBehind offset text).length = text.length := by
  induction text generalizing offset with
  | nil => rfl
  | cons c rest ih => simp [cutsBehind, ih]

theorem cutsBehind_append (offset : Nat) (before after : List Char) :
    cutsBehind offset (before ++ after) =
      cutsBehind offset before ++ cutsBehind (offset + byteLength before) after := by
  induction before generalizing offset with
  | nil => simp [cutsBehind]
  | cons c before ih => simp [cutsBehind, ih, Nat.add_assoc]

theorem lt_of_mem_cutsBehind {offset point : Nat} {text : List Char}
    (member : point ∈ cutsBehind offset text) : offset < point := by
  induction text generalizing offset with
  | nil => cases member
  | cons c rest ih =>
      have size := c.utf8Size_pos
      rcases List.mem_cons.mp member with rfl | member
      · omega
      · have behind := ih member
        omega

theorem mem_cutsBehind {word : List Char} (nonempty : word ≠ []) (offset : Nat)
    (after : List Char) :
    offset + byteLength word ∈ cutsBehind offset (word ++ after) := by
  rw [← List.dropLast_append_getLast nonempty, List.append_assoc, cutsBehind_append]
  apply List.mem_append_right
  simp [cutsBehind, Nat.add_assoc]

end Text

namespace Table

variable (table : Table)

def idleStates : Finset StateId :=
  (((List.range table.stateCount).filter fun state =>
    table.IsIdle (UInt32.ofNat state)).map UInt32.ofNat).toFinset

/-- The idle configurations behind `offset` in a text that goes on with `ahead`,
as far as they are not dead. -/
def openAhead (dead : Configurations) (offset : Nat) (ahead : List Char) :
    Finset Configuration :=
  ((table.idleStates ×ˢ (Text.cutsBehind offset ahead).toFinset).image
    fun (state, point) => ⟨state, point⟩).filter fun configuration => configuration ∉ dead

variable {table}

theorem mem_idleStates {state : StateId} :
    state ∈ table.idleStates ↔ table.IsIdle state := by
  simp only [idleStates, List.mem_toFinset, List.mem_map, List.mem_filter, List.mem_range,
    decide_eq_true_eq]
  constructor
  · rintro ⟨number, ⟨_, idle⟩, rfl⟩
    exact idle
  · intro idle
    exact ⟨state.toNat, ⟨idle.known, by simpa using idle⟩, by simp⟩

theorem card_idleStates_le : table.idleStates.card ≤ table.idleCount := by
  refine (List.toFinset_card_le _).trans ?_
  rw [List.length_map, idleCount, List.countP_eq_length_filter]

theorem mem_openAhead {dead : Configurations} {offset : Nat} {ahead : List Char}
    {configuration : Configuration} :
    configuration ∈ table.openAhead dead offset ahead ↔
      table.IsIdle configuration.state ∧
        configuration.offset ∈ Text.cutsBehind offset ahead ∧ configuration ∉ dead := by
  obtain ⟨state, point⟩ := configuration
  simp [openAhead, mem_idleStates, and_assoc]

theorem card_openAhead_le (dead : Configurations) (offset : Nat) (ahead : List Char) :
    (table.openAhead dead offset ahead).card ≤ table.idleCount * ahead.length := by
  calc
    (table.openAhead dead offset ahead).card ≤
        (table.idleStates ×ˢ (Text.cutsBehind offset ahead).toFinset).card :=
      (Finset.card_filter_le _ _).trans Finset.card_image_le
    _ = table.idleStates.card * (Text.cutsBehind offset ahead).toFinset.card :=
      Finset.card_product _ _
    _ ≤ table.idleCount * (Text.cutsBehind offset ahead).length :=
      Nat.mul_le_mul card_idleStates_le (List.toFinset_card_le _)
    _ = table.idleCount * ahead.length := by
      rw [Text.length_cutsBehind]

end Table

namespace Walk.Emission

variable {table : Table} {before ahead : List Char}

/-- The trail consists of configurations that were open. -/
theorem mem_openAhead_of_mem_trail (emission : Emission table before ahead)
    {configuration : Configuration} (passed : configuration ∈ emission.last.trail) :
    configuration ∈
      table.openAhead emission.last.dead (Text.byteLength before) ahead := by
  have behind := emission.lt_offset _ passed
  obtain ⟨idle, reached, rest, textEq, _, offsetEq, _⟩ := emission.doomed _ passed
  refine Table.mem_openAhead.mpr ⟨idle, ?_, emission.tracks.fresh _ passed⟩
  rw [offsetEq] at behind ⊢
  obtain ⟨word, rfl⟩ := Text.isPrefix_of_byteLength_le (List.prefix_append before ahead)
    ⟨rest, textEq.symm⟩ (Nat.le_of_lt behind)
  rw [List.append_assoc] at textEq
  rw [List.append_cancel_left textEq, Text.byteLength_append]
  apply Text.mem_cutsBehind
  rintro rfl
  simp at behind

theorem openAhead_next_subset (emission : Emission table before ahead) :
    table.openAhead emission.next.dead emission.token.stop emission.after ⊆
      table.openAhead emission.last.dead (Text.byteLength before) ahead := by
  intro configuration isOpen
  obtain ⟨idle, cut, alive⟩ := Table.mem_openAhead.mp isOpen
  refine Table.mem_openAhead.mpr ⟨idle, ?_, ?_⟩
  · rw [emission.split, Text.cutsBehind_append]
    exact List.mem_append_right _ cut
  · intro dead
    exact alive (mem_restartAt_of_lt (.inl dead) (Text.lt_of_mem_cutsBehind cut))

/-- A token closes the whole trail that led to it. -/
theorem card_openAhead_next_add_le (emission : Emission table before ahead) :
    (table.openAhead emission.next.dead emission.token.stop emission.after).card +
        emission.tail.length ≤
      (table.openAhead emission.last.dead (Text.byteLength before) ahead).card := by
  have separate : Disjoint
      (table.openAhead emission.next.dead emission.token.stop emission.after)
      emission.last.trail.toFinset := by
    rw [Finset.disjoint_left]
    intro configuration isOpen passed
    obtain ⟨_, cut, alive⟩ := Table.mem_openAhead.mp isOpen
    exact alive (mem_restartAt_of_lt (.inr (List.mem_toFinset.mp passed))
      (Text.lt_of_mem_cutsBehind cut))
  have trailCard : emission.last.trail.toFinset.card = emission.tail.length := by
    rw [List.toFinset_card_of_nodup emission.tracks.idling.nodup,
      emission.tracks.idling.length_eq]
  rw [← trailCard, ← Finset.card_union_of_disjoint separate]
  apply Finset.card_le_card
  apply Finset.union_subset emission.openAhead_next_subset
  intro configuration passed
  exact emission.mem_openAhead_of_mem_trail (List.mem_toFinset.mp passed)

end Walk.Emission

/-- The steps taken so far are paid by the characters behind the start of the
open token, twice each, by those offered since, and by the configurations that
are no longer open. -/
def Paid (table : Table) (text : List Char) (walk : Walk) (steps : Nat) : Prop :=
  ∃ before ahead matched tail rest, text = before ++ ahead ∧
    walk.Underway table before ahead matched tail rest ∧
    steps + (table.openAhead walk.dead (Text.byteLength before) ahead).card ≤
      table.idleCount * text.length + 2 * before.length + (matched ++ tail).length

namespace Paid

variable {table : Table} {text before ahead : List Char} {walk : Walk} {steps : Nat}

theorem startAt (table : Table) (text : List Char) :
    Paid table text (Walk.startAt table 0) 0 := by
  refine ⟨[], text, [], [], text, rfl, Walk.startAt_restsAt table [] text, ?_⟩
  have openLe := table.card_openAhead_le (Walk.startAt table 0).dead 0 text
  simpa using openLe

/-- Emitting a token, which takes at most one step more, is paid for by the
token and by its trail. -/
theorem emission (textEq : text = before ++ ahead)
    (emission : Walk.Emission table before ahead)
    (paid : steps + (table.openAhead emission.last.dead (Text.byteLength before) ahead).card ≤
      table.idleCount * text.length + 2 * before.length +
        (emission.matched ++ emission.tail).length + 1) :
    Paid table text emission.next steps := by
  refine ⟨before ++ emission.word, emission.after, [], [], emission.after, ?_,
    emission.restsAt, ?_⟩
  · rw [emission.text_eq, textEq]
  · have closed := emission.card_openAhead_next_add_le
    have matched_lt := emission.matched_lt
    have stopEq : emission.token.stop = Text.byteLength (before ++ emission.word) :=
      (Text.byteLength_append before emission.word).symm
    rw [stopEq] at closed
    simp only [List.length_append, List.length_nil] at paid ⊢
    omega

theorem step {c : Char} {left : List Char} (paid : Paid table text walk steps)
    (next : Text.dropBytes? walk.cursor text = some (c :: left)) :
    Paid table text (walk.step table c).2 (steps + 1) := by
  obtain ⟨before, ahead, matched, tail, rest, textEq, underway, balance⟩ := paid
  have restEq : rest = c :: left := by
    rw [textEq, underway.dropBytes?_cursor] at next
    exact Option.some.inj next
  subst restEq
  rcases underway.step_cases with
    ⟨moved, stepEq, deadEq, _, extended⟩ | ⟨emission, stepEq, lastEq, matchedEq, tailEq⟩
  · rw [stepEq]
    rw [← deadEq] at balance
    rcases extended with extended | extended
    · refine ⟨before, ahead, _, _, left, textEq, extended, ?_⟩
      simp only [List.length_append, List.length_singleton, List.length_nil] at balance ⊢
      omega
    · refine ⟨before, ahead, _, _, left, textEq, extended, ?_⟩
      simp only [List.length_append, List.length_singleton] at balance ⊢
      omega
  · rw [stepEq]
    apply Paid.emission textEq
    rw [lastEq, Walk.noteFirst_dead, matchedEq, tailEq]
    omega

theorem finish (paid : Paid table text walk steps)
    (ended : Text.dropBytes? walk.cursor text = some []) :
    Paid table text (walk.finish table).2 steps := by
  obtain ⟨before, ahead, matched, tail, rest, textEq, underway, balance⟩ := paid
  have restEq : rest = [] := by
    rw [textEq, underway.dropBytes?_cursor] at ended
    exact Option.some.inj ended
  subst restEq
  by_cases nothing : ahead = []
  · subst nothing
    rw [underway.finish_nil]
    exact ⟨before, [], matched, tail, [], textEq, underway, balance⟩
  · obtain ⟨emission, finishEq, lastEq, matchedEq, tailEq⟩ :=
      underway.finish_of_ne_nil nothing
    rw [finishEq]
    apply Paid.emission textEq
    rw [lastEq, matchedEq, tailEq]
    omega

theorem steps_le (paid : Paid table text walk steps) :
    steps ≤ (table.idleCount + 2) * text.length := by
  obtain ⟨before, ahead, matched, tail, rest, textEq, underway, balance⟩ := paid
  have lengthEq : text.length = before.length + ((matched ++ tail).length + rest.length) := by
    rw [textEq, ← underway.ahead_eq]
    simp only [List.length_append]
  calc
    steps ≤ table.idleCount * text.length + 2 * text.length := by omega
    _ = (table.idleCount + 2) * text.length := (Nat.add_mul _ _ _).symm

end Paid

theorem Driven.paid {table : Table} {text : List Char} {walk : Walk} {steps : Nat}
    (driven : Driven table text walk steps) : Paid table text walk steps := by
  induction driven with
  | fresh => exact Paid.startAt table text
  | step _ next ih => exact ih.step next
  | finish _ ended ih => exact ih.finish ended

/-- A walk that is driven over a text is underway in it. -/
theorem Driven.exists_underway {table : Table} {text : List Char} {walk : Walk} {steps : Nat}
    (driven : Driven table text walk steps) :
    ∃ before ahead matched tail rest, text = before ++ ahead ∧
      walk.Underway table before ahead matched tail rest := by
  obtain ⟨before, ahead, matched, tail, rest, textEq, underway, _⟩ := driven.paid
  exact ⟨before, ahead, matched, tail, rest, textEq, underway⟩

namespace Effort

variable {table : Table} {text before ahead : List Char} {walk : Walk} {steps : Nat}

/-- A scan drives its walk to the end of the text, and finds the tokens of
repeated longest match. -/
theorem scanFrom_driven (rests : walk.RestsAt table before ahead) (textEq : text = before ++ ahead)
    (driven : Driven table text walk steps) {count : Nat} (enough : ahead.length < count) :
    let effort := scanFrom table count walk steps ahead
    Driven table text effort.walk effort.steps ∧ effort.walk.RestsAt table text [] ∧
      table.Munched (Text.byteLength before) ahead
        (effort.milestones.map Milestone.token) := by
  induction count generalizing walk steps before ahead with
  | zero => omega
  | succ count ih =>
      by_cases last : ahead = []
      · subst last
        rw [List.append_nil] at textEq
        rw [scanFrom, rests.munch_nil, textEq]
        exact ⟨textEq ▸ driven, rests, .nil⟩
      · obtain ⟨emission, taken, munchEq⟩ := rests.munch last steps
        have munchDriven := driven.munch (textEq ▸ rests.dropBytes?_cursor)
        rw [munchEq] at munchDriven
        have shorter := emission.length_after_lt
        obtain ⟨endDriven, endRests, munched⟩ := ih emission.restsAt
          (by rw [emission.text_eq, textEq]) munchDriven (by omega)
        simp only [scanFrom, munchEq, emission.dropBytes?_eq]
        exact ⟨endDriven, endRests, emission.munched munched⟩

/-- Driving a walk over a text takes at most `N + 2` steps for each character,
where `N` is the number of states that are neither accepting nor the error
state.  The effort of a scan counts the steps of such a drive up to its end,
where nothing is left to finish, and its tokens are those of the text. -/
theorem ofText_steps_le (table : Table) (text : String) :
    (∀ walk steps, Driven table text.toList walk steps →
      steps ≤ (table.idleCount + 2) * text.length) ∧
    Driven table text.toList (ofText table text).walk (ofText table text).steps ∧
    (ofText table text).walk.cursor = text.utf8ByteSize ∧
    (ofText table text).walk.finish table = (none, (ofText table text).walk) ∧
    (ofText table text).milestones.map Milestone.token = tokenize table text := by
  have enough : text.toList.length < text.length + 1 := by
    rw [String.length_toList]
    exact Nat.lt_succ_self text.length
  obtain ⟨endDriven, endRests, munched⟩ :=
    scanFrom_driven (Walk.startAt_restsAt table [] text.toList) rfl Driven.fresh enough
  refine ⟨?_, endDriven, ?_, Walk.Underway.finish_nil endRests,
    munched.unique (tokenize_munched table text)⟩
  · intro walk steps driven
    rw [← String.length_toList]
    exact driven.paid.steps_le
  · rw [← Text.byteLength_toList]
    exact endRests.cursor_eq

end Effort

end MaximalMunch
