import MaximalMunch.Proofs.Pruning

/-!
# Walks from other offsets

A walk never sees its text, so it cannot tell where in a text its offsets lie.
Moving all offsets of a walk to the right and making a call comes to the same as
making the call and moving what comes of it: look-ups in the memory, emitted
tokens, and pruning all go by differences of offsets.  So walks that start at any
two offsets and are asked the same stay apart by the same distance for ever.
-/

namespace MaximalMunch

namespace Configuration

def shift (configuration : Configuration) (distance : Nat) : Configuration :=
  { configuration with offset := configuration.offset + distance }

def shiftAll (configurations : Configurations) (distance : Nat) : Configurations :=
  .ofList (configurations.toList.map fun configuration => configuration.shift distance) order

variable {configuration other : Configuration} {configurations : Configurations}
  {trail : List Configuration} {distance : Nat}

@[simp]
theorem shift_state (configuration : Configuration) (distance : Nat) :
    (configuration.shift distance).state = configuration.state :=
  rfl

@[simp]
theorem shift_offset (configuration : Configuration) (distance : Nat) :
    (configuration.shift distance).offset = configuration.offset + distance :=
  rfl

@[simp]
theorem shift_inj : configuration.shift distance = other.shift distance ↔ configuration = other := by
  cases configuration
  cases other
  simp [shift]

theorem mem_shiftAll_iff :
    other ∈ shiftAll configurations distance ↔
      ∃ configuration ∈ configurations, configuration.shift distance = other := by
  simp [shiftAll, Std.ExtTreeSet.mem_ofList]

@[simp]
theorem shift_mem_shiftAll_iff :
    configuration.shift distance ∈ shiftAll configurations distance ↔
      configuration ∈ configurations := by
  simp [mem_shiftAll_iff]

@[simp]
theorem size_shiftAll (configurations : Configurations) (distance : Nat) :
    (shiftAll configurations distance).size = configurations.size := by
  rw [shiftAll, Std.ExtTreeSet.size_ofList, List.length_map, Std.ExtTreeSet.length_toList]
  rw [List.pairwise_map]
  refine Std.ExtTreeSet.distinct_toList.imp ?_
  intro first second distinct
  simpa using distinct

theorem shiftAll_insertMany :
    shiftAll (configurations.insertMany trail) distance =
      (shiftAll configurations distance).insertMany
        (trail.map fun configuration => configuration.shift distance) := by
  apply Std.ExtTreeSet.ext_mem
  intro configuration
  simp only [mem_shiftAll_iff, Std.ExtTreeSet.mem_insertMany_list, List.contains_iff_mem,
    List.mem_map, or_and_right, exists_or]

theorem mem_filter_behind_iff {offset : Nat} :
    (configuration ∈ configurations.filter fun other => offset < other.offset) ↔
      configuration ∈ configurations ∧ offset < configuration.offset := by
  simp [Std.ExtTreeSet.mem_filter]

/-- What lies behind an offset still lies behind it when both are moved. -/
theorem shiftAll_filter_behind (configurations : Configurations) (offset distance : Nat) :
    shiftAll (configurations.filter fun other => offset < other.offset) distance =
      (shiftAll configurations distance).filter fun other => offset + distance < other.offset := by
  apply Std.ExtTreeSet.ext_mem
  intro moved
  rw [mem_shiftAll_iff, mem_filter_behind_iff, mem_shiftAll_iff]
  constructor
  · rintro ⟨configuration, member, rfl⟩
    obtain ⟨member, behind⟩ := mem_filter_behind_iff.mp member
    exact ⟨⟨configuration, member, rfl⟩, Nat.add_lt_add_right behind distance⟩
  · rintro ⟨⟨configuration, member, rfl⟩, behind⟩
    exact ⟨configuration,
      mem_filter_behind_iff.mpr ⟨member, Nat.lt_of_add_lt_add_right behind⟩, rfl⟩

end Configuration

namespace Walk

/-- The same walk, `distance` bytes to the right. -/
def shift (walk : Walk) (distance : Nat) : Walk where
  state := walk.state
  tokenStart := walk.tokenStart + distance
  cursor := walk.cursor + distance
  firstLength := walk.firstLength
  lastAccept := walk.lastAccept.map fun accept => accept.shift distance
  dead := Configuration.shiftAll walk.dead distance
  trail := walk.trail.map fun configuration => configuration.shift distance
  pruneAt := walk.pruneAt

variable {distance : Nat}

theorem startAt_shift (table : Table) (offset distance : Nat) :
    (startAt table offset).shift distance = startAt table (offset + distance) := by
  have nothing : Configuration.shiftAll ∅ distance = ∅ := by
    apply Std.ExtTreeSet.ext_mem
    simp [Configuration.mem_shiftAll_iff]
  simp [shift, startAt, nothing]

theorem prune_shift (dead : Configurations) (limit offset : Nat) :
    prune (Configuration.shiftAll dead distance) limit (offset + distance) =
      (Configuration.shiftAll (prune dead limit offset).1 distance,
        (prune dead limit offset).2) := by
  simp only [prune, Configuration.size_shiftAll, ← Configuration.shiftAll_filter_behind]
  split <;> rfl

theorem restartAt_shift (walk : Walk) (table : Table) (offset : Nat) :
    (walk.shift distance).restartAt table (offset + distance) =
      (walk.restartAt table offset).shift distance := by
  simp only [restartAt, shift, ← Configuration.shiftAll_insertMany, prune_shift, Option.map_none,
    List.map_nil]

theorem openToken_shift (walk : Walk) (table : Table) :
    (walk.shift distance).openToken table = (walk.openToken table).shift distance := by
  cases accepts : walk.lastAccept with
  | none => simp [openToken, shift, accepts, Token.shift, Nat.add_right_comm]
  | some accept => simp [openToken, shift, accepts, Token.shift]

theorem emit_shift (walk : Walk) (table : Table) :
    (walk.shift distance).emit table =
      ((walk.emit table).1.shift distance, (walk.emit table).2.shift distance) := by
  rw [emit, openToken_shift]
  exact congrArg _ (restartAt_shift walk table (walk.openToken table).stop)

theorem noteFirst_shift (walk : Walk) (c : Char) :
    (walk.shift distance).noteFirst c = (walk.noteFirst c).shift distance := by
  simp only [noteFirst, shift, Nat.add_right_cancel_iff]
  split <;> rfl

theorem enter_shift (walk : Walk) (target : Configuration) (accepting : Bool) :
    (walk.shift distance).enter (target.shift distance) accepting =
      (walk.enter target accepting).shift distance := by
  cases accepting <;> rfl

theorem blocks_shift (walk : Walk) (table : Table) (target : Configuration) :
    (walk.shift distance).blocks table (target.shift distance) = walk.blocks table target := by
  rw [Bool.eq_iff_iff]
  simp [blocks, shift]

theorem isPending_shift (walk : Walk) : (walk.shift distance).isPending = walk.isPending := by
  simp [isPending, shift]

/-- To move a walk and make a call is to make the call and move what comes of it. -/
theorem call_shift (walk : Walk) (table : Table) (call : Call) :
    (walk.shift distance).call table call =
      ((walk.call table call).1.map fun token => token.shift distance,
        (walk.call table call).2.shift distance) := by
  cases call with
  | offer c =>
      have targetEq : (⟨table.transition (walk.shift distance).state c,
            (walk.shift distance).cursor + c.utf8Size⟩ : Configuration) =
          Configuration.shift ⟨table.transition walk.state c, walk.cursor + c.utf8Size⟩ distance := by
        simp [shift, Configuration.shift, Nat.add_right_comm]
      simp only [Walk.call, step, targetEq, noteFirst_shift, blocks_shift, emit_shift, enter_shift]
      split <;> rfl
  | finish =>
      simp only [Walk.call, finish, isPending_shift, emit_shift]
      split <;> rfl

theorem historyBy_shift (walk : Walk) (table : Table) (calls : List Call) :
    (walk.shift distance).historyBy (call table) calls =
      (walk.historyBy (call table) calls).map fun (token, next) =>
        (token.map fun token => token.shift distance, next.shift distance) := by
  induction calls generalizing walk with
  | nil => rfl
  | cons call calls ih =>
      rw [historyBy, call_shift, ih, historyBy, List.map_cons]

/-- Calls that are admitted when their turn comes pass all checks. -/
theorem Steady.history?_eq_some {table : Table} {walk : Walk} (steady : walk.Steady table)
    {calls : List Call} (admitted : walk.AdmitsAll table calls) :
    walk.history? table calls = some (walk.historyBy (Walk.call table) calls) := by
  induction calls generalizing walk with
  | nil => rfl
  | cons call calls ih =>
      obtain ⟨admitted, admittedRest⟩ := admitted
      have called := steady.wellFormed.call?_eq_some admitted
      simp [history?, called, ih (steady.call call) admittedRest, historyBy]

theorem length_historyBy (answer : Walk → Call → Option Token × Walk) (walk : Walk)
    (calls : List Call) : (walk.historyBy answer calls).length = calls.length := by
  induction calls generalizing walk with
  | nil => rfl
  | cons call calls ih => simp [historyBy, ih]

end Walk

/-- The other token is the same one `distance` bytes further on, or further back when
`distance` is negative. -/
structure Token.MovedBy (distance : Int) (token moved : Token) : Prop where
  start_eq : (moved.start : Int) = token.start + distance
  stop_eq : (moved.stop : Int) = token.stop + distance
  kind_eq : moved.kind = token.kind

structure Configuration.MovedBy (distance : Int) (configuration moved : Configuration) : Prop where
  state_eq : moved.state = configuration.state
  offset_eq : (moved.offset : Int) = configuration.offset + distance

/-- The other walk is the same one with all its offsets moved by `distance`. -/
structure Walk.MovedBy (distance : Int) (walk moved : Walk) : Prop where
  state_eq : moved.state = walk.state
  tokenStart_eq : (moved.tokenStart : Int) = walk.tokenStart + distance
  cursor_eq : (moved.cursor : Int) = walk.cursor + distance
  firstLength_eq : moved.firstLength = walk.firstLength
  lastAccept_moved :
    Option.Rel (Configuration.MovedBy distance) walk.lastAccept moved.lastAccept
  dead_moved : ∀ configuration ∈ walk.dead, ∃ other ∈ moved.dead,
    configuration.MovedBy distance other
  dead_comes : ∀ other ∈ moved.dead, ∃ configuration ∈ walk.dead,
    configuration.MovedBy distance other
  trail_moved : List.Forall₂ (Configuration.MovedBy distance) walk.trail moved.trail
  pruneAt_eq : moved.pruneAt = walk.pruneAt

theorem natCast_add_eq (offset a b : Nat) :
    ((offset + b : Nat) : Int) = ((offset + a : Nat) : Int) + ((b : Int) - a) := by
  omega

theorem Token.shift_movedBy (token : Token) (a b : Nat) :
    (token.shift a).MovedBy ((b : Int) - a) (token.shift b) where
  start_eq := natCast_add_eq token.start a b
  stop_eq := natCast_add_eq token.stop a b
  kind_eq := rfl

theorem Configuration.shift_movedBy (configuration : Configuration) (a b : Nat) :
    (configuration.shift a).MovedBy ((b : Int) - a) (configuration.shift b) where
  state_eq := rfl
  offset_eq := natCast_add_eq configuration.offset a b

/-- What is made of the same value in two related ways is related. -/
theorem rel_map_map {α β : Type} {related : β → β → Prop} {f g : α → β}
    (each : ∀ value, related (f value) (g value)) (value : Option α) :
    Option.Rel related (value.map f) (value.map g) := by
  cases value with
  | none => exact .none
  | some value => exact .some (each value)

theorem Walk.shift_movedBy (walk : Walk) (a b : Nat) :
    (walk.shift a).MovedBy ((b : Int) - a) (walk.shift b) where
  state_eq := rfl
  tokenStart_eq := natCast_add_eq walk.tokenStart a b
  cursor_eq := natCast_add_eq walk.cursor a b
  firstLength_eq := rfl
  lastAccept_moved := rel_map_map (fun accept => accept.shift_movedBy a b) walk.lastAccept
  dead_moved := by
    intro moved member
    obtain ⟨configuration, known, rfl⟩ := Configuration.mem_shiftAll_iff.mp member
    exact ⟨configuration.shift b, Configuration.shift_mem_shiftAll_iff.mpr known,
      configuration.shift_movedBy a b⟩
  dead_comes := by
    intro moved member
    obtain ⟨configuration, known, rfl⟩ := Configuration.mem_shiftAll_iff.mp member
    exact ⟨configuration.shift a, Configuration.shift_mem_shiftAll_iff.mpr known,
      configuration.shift_movedBy a b⟩
  trail_moved := by
    rw [shift, shift, List.forall₂_map_left_iff, List.forall₂_map_right_iff, List.forall₂_same]
    exact fun configuration _ => configuration.shift_movedBy a b
  pruneAt_eq := rfl

namespace Walk

/-- Walks that start at any two offsets and are asked the same answer the same, apart
by the distance of these offsets, as long as the offsets of both can be represented. -/
theorem startAt_history?_moved (table : Table) (a b : Nat) (calls : List Call)
    (admitted : (startAt table a).AdmitsAll table calls)
    (otherAdmitted : (startAt table b).AdmitsAll table calls) :
    ∃ history other, (startAt table a).history? table calls = some history ∧
      (startAt table b).history? table calls = some other ∧
      history.length = calls.length ∧
      List.Forall₂ (fun entry moved =>
        Option.Rel (Token.MovedBy ((b : Int) - a)) entry.1 moved.1 ∧
          entry.2.MovedBy ((b : Int) - a) moved.2) history other := by
  refine ⟨_, _, (startAt_steady table a).history?_eq_some admitted,
    (startAt_steady table b).history?_eq_some otherAdmitted, length_historyBy _ _ _, ?_⟩
  have fromZero : ∀ offset, startAt table offset = (startAt table 0).shift offset := by
    intro offset
    rw [startAt_shift, Nat.zero_add]
  rw [fromZero a, fromZero b, historyBy_shift, historyBy_shift, List.forall₂_map_left_iff,
    List.forall₂_map_right_iff, List.forall₂_same]
  rintro ⟨token, walk⟩ _
  exact ⟨rel_map_map (fun token => token.shift_movedBy a b) token, walk.shift_movedBy a b⟩

/-- The careless caller again, from the offset `7` and five bytes before it. -/
theorem startAt_history?_moved_careless :
    (startAt sampleTable 7).AdmitsAll sampleTable carelessCalls ∧
      (startAt sampleTable 2).AdmitsAll sampleTable carelessCalls ∧
      ∃ history other,
        List.Forall₂ (fun (entry moved : Option Token × Walk) =>
          Option.Rel (Token.MovedBy (-5)) entry.1 moved.1 ∧ entry.2.MovedBy (-5) moved.2)
          history other ∧
        history.map Prod.fst = [none, none, some ⟨7, 8, 0⟩, some ⟨8, 9, KindId.unrecognized⟩,
          none, some ⟨9, 10, 0⟩, none] ∧
        other.map Prod.fst = [none, none, some ⟨2, 3, 0⟩, some ⟨3, 4, KindId.unrecognized⟩,
          none, some ⟨4, 5, 0⟩, none] := by
  have admitted : (startAt sampleTable 7).AdmitsAll sampleTable carelessCalls := by
    decide +kernel
  have otherAdmitted : (startAt sampleTable 2).AdmitsAll sampleTable carelessCalls := by
    decide +kernel
  obtain ⟨history, other, historyEq, otherEq, _, moved⟩ :=
    startAt_history?_moved sampleTable 7 2 carelessCalls admitted otherAdmitted
  have tokensOf : ∀ offset history,
      (startAt sampleTable offset).history? sampleTable carelessCalls = some history →
      history.map Prod.fst =
        (((startAt sampleTable offset).history? sampleTable carelessCalls).getD []).map
          Prod.fst := by
    intro offset history found
    rw [found, Option.getD_some]
  refine ⟨admitted, otherAdmitted, history, other, moved, ?_, ?_⟩
  · rw [tokensOf 7 history historyEq]
    decide +kernel
  · rw [tokensOf 2 other otherEq]
    decide +kernel

end Walk

end MaximalMunch
