import MaximalMunch.Proofs.Canonicity
import MaximalMunch.Proofs.CompiledParts
import Mathlib.Data.Finset.Card

/-!
# When operations make a table

Operations never fail because of the numbers they are given, so everything that
is wrong with them shows only when the table is built.  Read without carrying
them out, the operations say whether there will be a table: each of them starts
from a state that exists by then, edges and fallbacks lead to states, accepted
kinds have names, the error state accepts nothing, and there are not too many
columns.  Nothing else that is demanded of a table can fail.
-/

namespace MaximalMunch

/-- A defect that the operations of a description can bring about. -/
inductive Defect.OfDescription : Defect → Prop
  | unknownState (state : UInt32) : OfDescription (.unknownState state)
  | emptyCharRange (lo hi : Char) : OfDescription (.emptyCharRange lo hi)
  | tooManyClasses (classes : Nat) : OfDescription (.tooManyClasses classes)
  | unknownKind (state : Nat) (kind : KindId) (kindCount : Nat) :
      OfDescription (.unknownKind state kind kindCount)
  | errorStateAccepting (state : UInt32) (kind : KindId) :
      OfDescription (.errorStateAccepting state kind)

namespace Builder

/-- Where operations lead from a state on a code point, or, without a code point,
on one that no edge covers. -/
def targetAt (operations : List Operation) (state : StateId) (point : Option Nat) : StateId :=
  if state = error then
    error
  else
    ((point.bind (Edge.firstTarget? (edgesOf state operations))).or
      (lastFallback? state operations)).getD error

def columnAt (operations : List Operation) (point : Option Nat) : List StateId :=
  (List.range (stateTotal operations)).map fun state =>
    targetAt operations (UInt32.ofNat state) point

/-- The distinct columns of all code points and of one that no edge covers. -/
def distinctColumns (operations : List Operation) : Finset (List StateId) :=
  insert (columnAt operations none)
    ((Finset.range (lastCodePoint + 1)).image fun point => columnAt operations (some point))

/-- What operations must say for a table to come of them. -/
structure Buildable (operations : List Operation) : Prop where
  /-- Each operation starts from a state that exists when its turn comes. -/
  sources_known : SourcesKnown operations
  edges_sound : ∀ state, ∀ edge ∈ edgesOf state operations,
    edge.lo ≤ edge.hi ∧ edge.target.toNat < stateTotal operations
  fallbacks_known : ∀ state, ∀ target ∈ lastFallback? state operations,
    target.toNat < stateTotal operations
  kinds_known : ∀ state, ∀ kind ∈ lastKind? state operations,
    kind = KindId.absent ∨ kind.toNat < (registeredNames operations).length
  error_rejects : ∀ kind ∈ lastKind? error operations, kind = KindId.absent
  columns_few : (distinctColumns operations).card ≤ Parts.maxClassCount

variable {builder : Builder} {operations : List Operation} {defect : Defect}

theorem Records.column_eq (records : builder.Records operations)
    (fewStates : builder.states.size ≤ UInt32.size) (point : Option Nat) :
    builder.column point = columnAt operations point := by
  apply List.ext_getElem?
  intro index
  rw [column_getElem?, columnAt, List.getElem?_map, ← records.states_size]
  by_cases known : index < builder.states.size
  · obtain ⟨state, rfl, found⟩ := exists_rulesAt_eq fewStates known
    rw [found, List.getElem?_range known, Option.map_some, Option.map_some, UInt32.ofNat_toNat]
    simp only [targetFrom, targetAt, UInt32.toNat_inj, StateRules.target?, records.fallback_eq]
    rw [← records.edges_eq]
    rfl
  · rw [Array.getElem?_eq_none (Nat.le_of_not_lt known),
      List.getElem?_eq_none (by simpa using known), Option.map_none, Option.map_none]

/-- There is one class for each distinct column. -/
theorem Records.length_columns (records : builder.Records operations)
    (fewStates : builder.states.size ≤ UInt32.size) :
    builder.columns.length = (distinctColumns operations).card := by
  have columnsEq : builder.columns = (columnAt operations none ::
      (List.range (lastCodePoint + 1)).map fun point =>
        columnAt operations (some point)).eraseDups := by
    simp only [columns_eq_eraseDups_points, records.column_eq fewStates]
  have sameColumns : builder.columns.toFinset = distinctColumns operations := by
    rw [columnsEq]
    ext column
    simp [distinctColumns]
  have nodup : builder.columns.Nodup := nodup_eraseDups _
  rw [← List.toFinset_card_of_nodup nodup, sameColumns]

/-- What holds of a state about which nothing is said holds of all states when it
holds of those that exist. -/
theorem forall_rules_iff {good : StateRules → Prop} (silent : good {})
    (fewStates : builder.states.size ≤ UInt32.size) :
    (∀ rules ∈ builder.states, good rules) ↔ ∀ state, good (builder.rulesAt state) := by
  constructor
  · intro each state
    by_cases known : state.toNat < builder.states.size
    · exact each _ (Array.mem_of_getElem? (rulesAt_known known))
    · rw [rulesAt_of_size_le (Nat.le_of_not_lt known)]
      exact silent
  · intro each rules member
    obtain ⟨index, known, rfl⟩ := Array.mem_iff_getElem.mp member
    obtain ⟨state, rfl, found⟩ := exists_rulesAt_eq fewStates known
    rw [Array.getElem?_eq_getElem known, Option.some.injEq] at found
    rw [found]
    exact each state

theorem Records.defect?_eq_none_iff (records : builder.Records operations)
    (settled : builder.dangling = none) (fewStates : builder.states.size ≤ UInt32.size) :
    builder.defect? = none ↔
      (∀ state, ∀ edge ∈ edgesOf state operations,
        edge.lo ≤ edge.hi ∧ edge.target.toNat < stateTotal operations) ∧
      ∀ state, ∀ target ∈ lastFallback? state operations,
        target.toNat < stateTotal operations := by
  rw [Builder.defect?_eq_none_iff, forall_rules_iff (by simp) fewStates, forall_and]
  simp only [settled, true_and, ← records.edges_eq, ← records.fallback_eq, ← records.states_size,
    Array.mem_toList_iff]

theorem Records.parts_valid_iff (records : builder.Records operations)
    (silencedValid : builder.parts.silenced.Valid)
    (fewStates : builder.states.size ≤ UInt32.size) :
    builder.parts.Valid ↔
      (∀ state, ∀ kind ∈ lastKind? state operations,
        kind = KindId.absent ∨ kind.toNat < (registeredNames operations).length) ∧
      ∀ kind ∈ lastKind? error operations, kind = KindId.absent := by
  have known : (∀ kind ∈ builder.parts.tokenOf,
      kind = KindId.absent ∨ kind.toNat < builder.kindNames.size) ↔
      ∀ state, ∀ kind ∈ lastKind? state operations,
        kind = KindId.absent ∨ kind.toNat < (registeredNames operations).length := by
    rw [parts, Array.forall_mem_map, forall_rules_iff (.inl rfl) fewStates]
    refine forall_congr' fun state => ?_
    rw [records.accepts_eq, ← records.kindNames_eq, Array.length_toList]
    cases lastKind? state operations <;> simp
  have rejects : builder.parts.tokenOf[builder.parts.error.toNat]? = some KindId.absent ↔
      ∀ kind ∈ lastKind? error operations, kind = KindId.absent := by
    have errorKnown : error.toNat < builder.states.size := by
      rw [records.states_size]
      exact two_le_stateTotal operations
    change (builder.states.map fun rules => rules.accepts.getD KindId.absent)[error.toNat]? = _ ↔ _
    rw [Array.getElem?_map, rulesAt_known errorKnown, Option.map_some, records.accepts_eq,
      Option.some.injEq]
    cases lastKind? error operations <;> simp
  rw [Parts.valid_iff_of_silenced silencedValid]
  exact and_congr known rejects

theorem exists_build_eq_ok_iff :
    (∃ table, builder.build = .ok table) ↔
      builder.defect? = none ∧ builder.columns.length ≤ Parts.maxClassCount ∧
        builder.parts.Valid := by
  constructor
  · rintro ⟨table, built⟩
    obtain ⟨sound, fewClasses, same⟩ := compile_eq_ok (compile_of_build built)
    exact ⟨sound, fewClasses, same ▸ table.valid⟩
  · rintro ⟨sound, fewClasses, valid⟩
    refine ⟨⟨builder.parts, valid⟩, ?_⟩
    rw [build, compile_eq_of_fewClasses sound fewClasses]
    exact Table.ofParts_eq_ok_iff.mpr rfl

theorem Records.silenced_parts_valid (records : builder.Records operations)
    (sound : builder.defect? = none)
    (fewClasses : builder.columns.length ≤ Parts.maxClassCount)
    (fewStates : builder.states.size < UInt32.size) : builder.parts.silenced.Valid := by
  apply Builder.silenced_parts_valid sound fewClasses _ fewStates
  · rw [records.kindNames_eq]
    exact nodup_eraseDups _
  · rw [← Array.mem_toList_iff, records.kindNames_eq]
    exact unrecognizedName_not_mem_registeredNames operations
  · rw [records.states_size]
    exact two_le_stateTotal operations

theorem ofDescription_of_defect? (found : builder.defect? = some defect) :
    defect.OfDescription := by
  rw [Builder.defect?, Option.or_eq_some_iff] at found
  rcases found with dangling | ⟨_, found⟩
  · obtain ⟨state, _, rfl⟩ := Option.map_eq_some_iff.mp dangling
    exact .unknownState state
  · obtain ⟨rules, _, found⟩ := List.exists_of_findSome?_eq_some found
    rw [rulesDefect?, Option.or_eq_some_iff] at found
    rcases found with found | ⟨_, found⟩
    · obtain ⟨edge, _, found⟩ := List.exists_of_findSome?_eq_some found
      rw [edgeDefect?] at found
      split at found
      case isTrue => exact Option.some.inj found ▸ .emptyCharRange edge.lo edge.hi
      case isFalse =>
        split at found
        case isTrue => exact Option.some.inj found ▸ .unknownState edge.target
        case isFalse => cases found
    · obtain ⟨target, _, rfl⟩ := Option.map_eq_some_iff.mp found
      exact .unknownState target

/-- When everything but the accepted kinds is in order, only an accepted kind can be
reported. -/
theorem ofDescription_of_silenced {parts : Parts} (valid : parts.silenced.Valid)
    (found : parts.defect? = some defect) : defect.OfDescription := by
  rw [Parts.defect?_of_silenced valid, Option.or_eq_some_iff] at found
  rcases found with found | ⟨_, found⟩
  · obtain ⟨⟨kind, state⟩, _, rfl⟩ := Option.map_eq_some_iff.mp found
    exact .unknownKind state kind parts.kindNames.size
  · have entry := valid.error_rejects
    rw [Parts.silenced, Array.getElem?_map, Option.map_eq_some_iff] at entry
    obtain ⟨kind, entry, _⟩ := entry
    rw [Parts.errorStateDefect?, entry] at found
    simp only at found
    split at found
    case isTrue => cases found
    case isFalse => exact Option.some.inj found ▸ .errorStateAccepting parts.error kind

theorem exists_build_perform_eq_ok_iff (fewStates : stateTotal operations < UInt32.size) :
    (∃ table, (empty.perform operations).build = .ok table) ↔ Buildable operations := by
  rw [← size_perform] at fewStates
  have fewEnough := Nat.le_of_lt fewStates
  rw [exists_build_eq_ok_iff]
  constructor
  · rintro ⟨sound, fewClasses, valid⟩
    have settled := dangling_of_defect? sound
    have records := records_of_perform operations settled
    have silenced := records.silenced_parts_valid sound fewClasses fewStates
    obtain ⟨edgesSound, fallbacksKnown⟩ :=
      (records.defect?_eq_none_iff settled fewEnough).mp sound
    obtain ⟨kindsKnown, errorRejects⟩ := (records.parts_valid_iff silenced fewEnough).mp valid
    exact {
      sources_known := (dangling_perform_eq_none_iff operations).mp settled
      edges_sound := edgesSound
      fallbacks_known := fallbacksKnown
      kinds_known := kindsKnown
      error_rejects := errorRejects
      columns_few := records.length_columns fewEnough ▸ fewClasses }
  · intro buildable
    have settled := (dangling_perform_eq_none_iff operations).mpr buildable.sources_known
    have records := records_of_perform operations settled
    have sound := (records.defect?_eq_none_iff settled fewEnough).mpr
      ⟨buildable.edges_sound, buildable.fallbacks_known⟩
    have fewClasses : (empty.perform operations).columns.length ≤ Parts.maxClassCount := by
      rw [records.length_columns fewEnough]
      exact buildable.columns_few
    have silenced := records.silenced_parts_valid sound fewClasses fewStates
    exact ⟨sound, fewClasses, (records.parts_valid_iff silenced fewEnough).mpr
      ⟨buildable.kinds_known, buildable.error_rejects⟩⟩

theorem ofDescription_of_build_perform (fewStates : stateTotal operations < UInt32.size)
    (failed : (empty.perform operations).build = .error defect) : defect.OfDescription := by
  rw [← size_perform] at fewStates
  rw [build] at failed
  cases found : (empty.perform operations).defect? with
  | some reported =>
      rw [compile_eq_of_defect found] at failed
      exact Except.error.inj failed ▸ ofDescription_of_defect? found
  | none =>
      have records := records_of_perform operations (dangling_of_defect? found)
      rcases Nat.lt_or_ge Parts.maxClassCount (empty.perform operations).columns.length with
        manyClasses | fewClasses
      · rw [compile_eq_of_manyClasses found manyClasses] at failed
        exact Except.error.inj failed ▸ .tooManyClasses _
      · rw [compile_eq_of_fewClasses found fewClasses] at failed
        exact ofDescription_of_silenced (records.silenced_parts_valid found fewClasses fewStates)
          (Table.ofParts_eq_error_iff.mp failed)

/-- Operations make a table exactly when what they say fits together.  When they do
not, one of five defects is reported, and no other check of a table ever fails. -/
theorem build_perform_succeeds_iff (fewStates : stateTotal operations < UInt32.size) :
    ((∃ table, (empty.perform operations).build = .ok table) ↔ Buildable operations) ∧
      ∀ defect, (empty.perform operations).build = .error defect → defect.OfDescription :=
  ⟨exists_build_perform_eq_ok_iff fewStates,
    fun _ => ofDescription_of_build_perform fewStates⟩

/-- Without characters it does not matter that there is no state `9`. -/
def oneLetter : List Operation :=
  [.kind "A", .accepting 0, .onAny 9 "" 5, .on 0 'a' 2]

/-- The state `2` comes too late for the edge that starts from it. -/
def lateSource : List Operation :=
  [.kind "A", .on 2 'a' 0, .accepting 0]

theorem build_perform_succeeds_iff_oneLetter :
    Buildable oneLetter ∧ ¬ Buildable lateSource := by
  have oneLetterFew : stateTotal oneLetter < UInt32.size := by decide
  have lateSourceFew : stateTotal lateSource < UInt32.size := by decide
  constructor
  · apply (build_perform_succeeds_iff oneLetterFew).1.mp
    exact exists_eq_ok_of_builds (by decide +kernel)
  · intro buildable
    obtain ⟨table, built⟩ := (build_perform_succeeds_iff lateSourceFew).1.mpr buildable
    have refused : (empty.perform lateSource).build.toOption.isNone := by decide +kernel
    rw [built] at refused
    cases refused

end Builder

end MaximalMunch
