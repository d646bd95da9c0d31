import MaximalMunch.Proofs.Canonicity
import MaximalMunch.Proofs.CompiledParts

/-!
# The coarsest classes

A description is compiled to no more classes than its states can tell apart: two
characters share a class exactly when every state leads them to the same target,
and any two classes are told apart by some state.  The ranges of its class map are
as few as can be: none of them has the class of all others, and no two neighbours
could be glued.
-/

namespace MaximalMunch

/-- The other range begins right behind this one and has the same class. -/
def ClassRange.ContinuedBy (range next : ClassRange) : Prop :=
  range.cls = next.cls ∧ range.hi.toNat + 1 = next.lo.toNat

namespace Builder

variable {builder : Builder} {table : Table}

/-- The column of a character lists where it leads. -/
theorem column_getElem?_of_build (built : builder.build = .ok table) {state : StateId}
    (known : state.toNat < table.stateCount) (c : Char) :
    (builder.column (some c.toNat))[state.toNat]? = table.transition? state c := by
  rw [stateCount_of_build built] at known
  have found := rulesAt_known known
  rw [column_getElem?, transition?_of_build built found, found, Option.map_some]

@[simp]
theorem length_column (builder : Builder) (point : Option Nat) :
    (builder.column point).length = builder.states.size := by
  simp [column]

/-- Columns that differ do so at some state. -/
theorem exists_state_of_ne {first second : List StateId}
    (fewStates : builder.states.size ≤ UInt32.size)
    (firstLength : first.length = builder.states.size)
    (secondLength : second.length = builder.states.size) (differ : first ≠ second) :
    ∃ state : StateId, state.toNat < builder.states.size ∧
      first[state.toNat]? ≠ second[state.toNat]? := by
  obtain ⟨index, indexDiffers⟩ :=
    Classical.not_forall.mp fun same => differ (List.ext_getElem? same)
  have known : index < builder.states.size := by
    refine Nat.lt_of_not_le fun missing => indexDiffers ?_
    rw [List.getElem?_eq_none (firstLength ▸ missing),
      List.getElem?_eq_none (secondLength ▸ missing)]
  obtain ⟨state, rfl, _⟩ := exists_rulesAt_eq fewStates known
  exact ⟨state, known, indexDiffers⟩

/-- Characters share a class exactly when no state tells them apart. -/
theorem classOf_eq_iff_of_build (built : builder.build = .ok table) (a b : Char) :
    table.classOf a = table.classOf b ↔ ∀ state : StateId, state.toNat < table.stateCount →
      table.transition? state a = table.transition? state b := by
  have aMember := builder.column_mem_columns (toNat_le_lastCodePoint a)
  have sameColumn : table.classOf a = table.classOf b ↔
      builder.column (some a.toNat) = builder.column (some b.toNat) := by
    rw [← UInt16.toNat_inj, toNat_classOf_of_build built, toNat_classOf_of_build built,
      List.idxOf_inj aMember]
  rw [sameColumn]
  constructor
  · intro same state known
    rw [← column_getElem?_of_build built known, ← column_getElem?_of_build built known, same]
  · intro same
    refine Classical.byContradiction fun differ => ?_
    obtain ⟨state, known, stateDiffers⟩ := exists_state_of_ne (states_size_le_of_build built)
      (length_column _ _) (length_column _ _) differ
    rw [← stateCount_of_build built] at known
    rw [column_getElem?_of_build built known, column_getElem?_of_build built known] at stateDiffers
    exact stateDiffers (same state known)

/-- The column of a class lists where the class leads. -/
theorem transitionOn?_of_build (built : builder.build = .ok table) {state : StateId}
    (known : state.toNat < table.stateCount) {cls : UInt16}
    (clsLt : cls.toNat < builder.columns.length) :
    table.transitionOn? state cls = builder.columns[cls.toNat][state.toNat]? := by
  have member := List.getElem_mem clsLt
  have nodup : builder.columns.Nodup := nodup_eraseDups _
  obtain ⟨point, columnEq⟩ := exists_column_of_mem_columns member
  rw [stateCount_of_build built] at known
  have entry : state.toNat < builder.columns[cls.toNat].length := by
    rw [columnEq, length_column]
    exact known
  have found := matrix_getElem? member known
  rw [nodup.idxOf_getElem cls.toNat clsLt, List.getD_eq_getElem?_getD,
    List.getElem?_eq_getElem entry, Option.getD_some] at found
  rw [Table.transitionOn?, classCount_of_build built, parts_of_build built, parts, found,
    List.getElem?_eq_getElem entry]

/-- Any two classes are told apart by some state. -/
theorem exists_transitionOn?_ne_of_build (built : builder.build = .ok table)
    {cls other : UInt16} (clsLt : cls.toNat < table.classCount)
    (otherLt : other.toNat < table.classCount) (differ : cls ≠ other) :
    ∃ state target otherTarget, state.toNat < table.stateCount ∧
      table.transitionOn? state cls = some target ∧
      table.transitionOn? state other = some otherTarget ∧ target ≠ otherTarget := by
  rw [classCount_of_build built] at clsLt otherLt
  have nodup : builder.columns.Nodup := nodup_eraseDups _
  have columnsDiffer : builder.columns[cls.toNat] ≠ builder.columns[other.toNat] :=
    fun same => differ (UInt16.toNat_inj.mp (nodup.getElem_inj_iff.mp same))
  have lengthEq : ∀ column ∈ builder.columns, column.length = builder.states.size := by
    intro column member
    obtain ⟨point, rfl⟩ := exists_column_of_mem_columns member
    exact length_column builder point
  have clsLength := lengthEq _ (List.getElem_mem clsLt)
  have otherLength := lengthEq _ (List.getElem_mem otherLt)
  obtain ⟨state, stateLt, stateDiffers⟩ :=
    exists_state_of_ne (states_size_le_of_build built) clsLength otherLength columnsDiffer
  have known : state.toNat < table.stateCount := stateCount_of_build built ▸ stateLt
  have clsEntry := transitionOn?_of_build built known clsLt
  have otherEntry := transitionOn?_of_build built known otherLt
  rw [List.getElem?_eq_getElem (clsLength ▸ stateLt)] at clsEntry stateDiffers
  rw [List.getElem?_eq_getElem (otherLength ▸ stateLt)] at otherEntry stateDiffers
  exact ⟨state, _, _, known, clsEntry, otherEntry, fun same => stateDiffers (congrArg some same)⟩

theorem classRanges_cls_ne (builder : Builder) (columns : List (List StateId)) :
    ∀ range ∈ builder.classRanges columns, range.cls ≠ otherClass := by
  apply foldr_glueRange_forall (fun range => range.cls ≠ otherClass)
    (fun _ _ _ rangeListed _ => rangeListed)
  intro range member
  simpa using (List.mem_filter.mp member).2

theorem glueRange_isChain {range : ClassRange} {ranges : List ClassRange}
    (apart : ranges.IsChain fun range next => ¬ range.ContinuedBy next) :
    (glueRange range ranges).IsChain fun range next => ¬ range.ContinuedBy next := by
  cases ranges with
  | nil => exact .singleton range
  | cons next ranges =>
      rw [glueRange]
      split
      case isFalse notContinued => exact .cons_cons notContinued apart
      case isTrue continued =>
        cases ranges with
        | nil => exact .singleton _
        | cons behind ranges =>
            obtain ⟨nextApart, restApart⟩ := List.isChain_cons_cons.mp apart
            refine .cons_cons ?_ restApart
            -- What comes behind sees only the end of the glued range and its class.
            rintro ⟨sameClass, touching⟩
            exact nextApart ⟨continued.1.symm.trans sameClass, touching⟩

theorem classRanges_isChain (builder : Builder) (columns : List (List StateId)) :
    (builder.classRanges columns).IsChain fun range next => ¬ range.ContinuedBy next := by
  rw [classRanges]
  generalize List.filter _ _ = ranges
  induction ranges with
  | nil => exact .nil
  | cons range ranges ih => exact glueRange_isChain ih

/-- A table that was built has the coarsest classes that its states allow, and the
fewest ranges that its classes allow. -/
theorem build_classes_coarsest (built : builder.build = .ok table) :
    (∀ a b : Char, table.classOf a = table.classOf b ↔
      ∀ state : StateId, state.toNat < table.stateCount →
        ∃ target, table.transition? state a = some target ∧
          table.transition? state b = some target) ∧
    (∀ cls other : UInt16, cls.toNat < table.classCount → other.toNat < table.classCount →
      cls ≠ other → ∃ state target otherTarget, state.toNat < table.stateCount ∧
        table.transitionOn? state cls = some target ∧
        table.transitionOn? state other = some otherTarget ∧ target ≠ otherTarget) ∧
    (∀ range ∈ table.parts.classes.ranges, range.cls ≠ otherClass) ∧
    table.parts.classes.ranges.toList.IsChain fun range next => ¬ range.ContinuedBy next := by
  have rangesEq : table.parts.classes.ranges.toList = builder.classRanges builder.columns := by
    rw [parts_of_build built]
    rfl
  refine ⟨?_, ?_, ?_, ?_⟩
  · intro a b
    rw [classOf_eq_iff_of_build built]
    refine forall_congr' fun state => forall_congr' fun known => ?_
    rw [stateCount_of_build built] at known
    rw [transition?_of_build built (rulesAt_known known) a]
    simp [eq_comm]
  · intro cls other clsLt otherLt differ
    exact exists_transitionOn?_ne_of_build built clsLt otherLt differ
  · intro range member
    rw [← Array.mem_toList_iff, rangesEq] at member
    exact builder.classRanges_cls_ne _ range member
  · rw [rangesEq]
    exact builder.classRanges_isChain _

/-- Letters on both sides of the end of ASCII, in two edges to one state, and an edge
that only repeats the fallback. -/
def splitLetters : List Operation :=
  [.kind "LETTER", .accepting 0, .onRange 0 'a' 'z' 2, .onRange 0 'à' 'ÿ' 2, .on 0 'µ' 1]

theorem build_classes_coarsest_splitLetters :
    ∃ table, (empty.perform splitLetters).build = .ok table ∧
      table.classOf 'q' = table.classOf 'é' ∧ table.classOf 'µ' = table.classOf '€' ∧
      table.classOf 'q' ≠ table.classOf '€' := by
  obtain ⟨table, built⟩ := exists_eq_ok_of_builds
    (show (empty.perform splitLetters).build.toOption.isSome by decide +kernel)
  have classes := (build_classes_coarsest built).1
  have stateCountEq : table.stateCount = 3 := by
    rw [stateCount_of_build built]
    decide +kernel
  have leads : ∀ (c : Char) (column : List StateId),
      (empty.perform splitLetters).column (some c.toNat) = column →
      ∀ state : StateId, state.toNat < table.stateCount →
        table.transition? state c = column[state.toNat]? := by
    rintro c _ rfl state known
    exact (column_getElem?_of_build built known c).symm
  have leadsLetter := leads 'q' [2, 1, 1] (by decide +kernel)
  have leadsAccented := leads 'é' [2, 1, 1] (by decide +kernel)
  have leadsMicro := leads 'µ' [1, 1, 1] (by decide +kernel)
  have leadsEuro := leads '€' [1, 1, 1] (by decide +kernel)
  refine ⟨table, built, ?_, ?_, ?_⟩
  · refine (classes 'q' 'é').mpr fun state known => ?_
    rw [leadsLetter state known, leadsAccented state known]
    rw [stateCountEq] at known
    exact ⟨_, List.getElem?_eq_getElem known, List.getElem?_eq_getElem known⟩
  · refine (classes 'µ' '€').mpr fun state known => ?_
    rw [leadsMicro state known, leadsEuro state known]
    rw [stateCountEq] at known
    exact ⟨_, List.getElem?_eq_getElem known, List.getElem?_eq_getElem known⟩
  · intro same
    have startKnown : (0 : StateId).toNat < table.stateCount := by
      rw [stateCountEq]
      decide
    obtain ⟨target, letterTarget, euroTarget⟩ := (classes 'q' '€').mp same 0 startKnown
    rw [leadsLetter 0 startKnown] at letterTarget
    rw [leadsEuro 0 startKnown, ← letterTarget] at euroTarget
    cases euroTarget

end Builder

end MaximalMunch
