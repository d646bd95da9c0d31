import MaximalMunch.Proofs.CompiledTable
import MaximalMunch.Proofs.Performed

/-!
# The meaning of operations

A table that was built does what the operations say that made its description:
from each state, on each character, it goes where the first covering edge leads,
or else the last fallback, or else to the error state.
-/

namespace MaximalMunch

namespace Builder

/-- Where operations lead from a state: along the first edge that covers the
character, or else to the fallback that was set last, or else to the error
state, which is never left. -/
def targetOf (operations : List Operation) (state : StateId) (c : Char) : StateId :=
  if state = error then
    error
  else
    (((edgesOf state operations).find? fun edge => edge.lo ≤ c ∧ c ≤ edge.hi).map Edge.target
      |>.or (lastFallback? state operations)).getD error

theorem covers_toNat (edge : Edge) (c : Char) :
    edge.covers c.toNat = decide (edge.lo ≤ c ∧ c ≤ edge.hi) := by
  rw [Bool.eq_iff_iff, Edge.covers, Bool.and_eq_true, decide_eq_true_eq, decide_eq_true_eq,
    decide_eq_true_eq]
  rfl

variable {builder : Builder} {operations : List Operation} {table : Table}

theorem Records.targetFrom_rulesAt (records : builder.Records operations) (state : StateId)
    (c : Char) :
    targetFrom state.toNat (builder.rulesAt state) (some c.toNat) =
      targetOf operations state c := by
  simp only [targetFrom, targetOf, UInt32.toNat_inj, StateRules.target?, Option.bind_some,
    StateRules.edgeTarget?, records.edges_eq, records.fallback_eq, covers_toNat]

theorem dangling_of_defect? (sound : builder.defect? = none) : builder.dangling = none := by
  rw [defect?, Option.or_eq_none_iff, Option.map_eq_none_iff] at sound
  exact sound.1

theorem dangling_of_build (built : builder.build = .ok table) : builder.dangling = none :=
  dangling_of_defect? (compile_eq_ok (compile_of_build built)).1

theorem stateCount_of_build (built : builder.build = .ok table) :
    table.stateCount = builder.states.size := by
  rw [Table.stateCount, ← table.valid.tokenOf_size, parts_of_build built]
  exact Array.size_map

theorem rulesAt_known {state : StateId} (known : state.toNat < builder.states.size) :
    builder.states[state.toNat]? = some (builder.rulesAt state) := by
  rw [rulesAt, Array.getElem?_eq_getElem known, Option.getD_some]

/-- Every index of a state is the number of that state. -/
theorem exists_rulesAt_eq (fewStates : builder.states.size ≤ UInt32.size) {index : Nat}
    (known : index < builder.states.size) :
    ∃ state : StateId, state.toNat = index ∧
      builder.states[index]? = some (builder.rulesAt state) := by
  have stateEq : (UInt32.ofNat index).toNat = index :=
    UInt32.toNat_ofNat_of_lt' (Nat.lt_of_lt_of_le known fewStates)
  refine ⟨UInt32.ofNat index, stateEq, ?_⟩
  have found := @rulesAt_known builder (UInt32.ofNat index) (by rwa [stateEq])
  rwa [stateEq] at found

/-- A table that was built from operations means what they say.  On each
character a state goes where they lead, it accepts the kind that was set for it
last, and the kinds are the names in the order of their registration. -/
theorem build_perform_meaning (built : (empty.perform operations).build = .ok table) :
    table.start = 0 ∧ table.error = 1 ∧ table.stateCount = stateTotal operations ∧
      table.kinds = (registeredNames operations).zipIdx.map
        (fun (name, index) => (UInt32.ofNat index, name)) ∧
      ∀ state, state.toNat < table.stateCount →
        table.kindOf? state =
          some ((lastKind? state operations).filter (· ≠ KindId.absent)) ∧
        ∀ c, table.transition? state c = some (targetOf operations state c) := by
  have records := records_of_perform operations (dangling_of_build built)
  refine ⟨start_of_build built, error_of_build built, ?_, ?_, ?_⟩
  · rw [stateCount_of_build built, records.states_size]
  · rw [kinds_of_build built, ← records.kindNames_eq]
  · intro state stateLt
    rw [stateCount_of_build built] at stateLt
    have known := rulesAt_known stateLt
    constructor
    · rw [kindOf?_of_build built known, records.accepts_eq]
    · intro c
      rw [transition?_of_build built known, records.targetFrom_rulesAt]

/-- Operations with overlapping edges, a name that is taken, and a fallback and
a kind that are replaced. -/
def sampleOperations : List Operation :=
  [.kind "A", .kind "A", .accepting 0, .on 0 'é' 1, .onRange 0 'a' 'ÿ' 2,
    .onAny 0 "0é" 0, .otherwise 2 1, .otherwise 2 0, .kind "B", .accept 2 1]

theorem build_perform_meaning_sample :
    ∃ table, (empty.perform sampleOperations).build = .ok table ∧
      table.kinds = [(0, "A"), (1, "B")] ∧ table.kindOf? 2 = some (some 1) ∧
      ['é', 'k', '0', '1'].map (table.transition? 0) = [some 1, some 2, some 0, some 1] ∧
      table.transition? 2 'é' = some 0 := by
  obtain ⟨table, built⟩ := exists_eq_ok_of_builds
    (show (empty.perform sampleOperations).build.toOption.isSome by decide +kernel)
  obtain ⟨_, _, stateCountEq, kindsEq, states⟩ := build_perform_meaning built
  have startLt : (0 : StateId).toNat < table.stateCount := by rw [stateCountEq]; decide
  have acceptingLt : (2 : StateId).toNat < table.stateCount := by rw [stateCountEq]; decide
  refine ⟨table, built, ?_, ?_, ?_, ?_⟩
  · rw [kindsEq]
    decide +kernel
  · rw [(states 2 acceptingLt).1]
    decide
  · simp only [List.map_cons, List.map_nil, (states 0 startLt).2]
    decide
  · rw [(states 2 acceptingLt).2]
    decide

end Builder

end MaximalMunch
