import MaximalMunch.Proofs.CompiledTable
import MaximalMunch.Proofs.Validation

/-!
# The parts of a compiled description

A description without defects compiles to parts in which only one thing can be
wrong, namely which kinds the states accept.  Everything else that is demanded of
parts holds by construction: the shapes, the targets and the classes, and the
ranges of the class map, which ascend because the intervals do.
-/

namespace MaximalMunch

namespace Parts

/-- The parts when no state accepts anything. -/
def silenced (parts : Parts) : Parts :=
  { parts with tokenOf := parts.tokenOf.map fun _ => KindId.absent }

variable {parts : Parts}

/-- When everything but the accepted kinds is in order, the parts are valid exactly
when the accepted kinds are in order too. -/
theorem valid_iff_of_silenced (valid : parts.silenced.Valid) :
    parts.Valid ↔
      (∀ kind ∈ parts.tokenOf, kind = KindId.absent ∨ kind.toNat < parts.kindNames.size) ∧
        parts.tokenOf[parts.error.toNat]? = some KindId.absent := by
  constructor
  · intro whole
    exact ⟨whole.tokenOf_known, whole.error_rejects⟩
  · rintro ⟨known, rejects⟩
    have tokenShape : parts.tokenOf.size = parts.stateCount.toNat := by
      rw [← Array.size_map]
      exact valid.tokenOf_size
    exact {
      stateCount_pos := valid.stateCount_pos
      classCount_pos := valid.classCount_pos
      classCount_le := valid.classCount_le
      start_lt := valid.start_lt
      error_lt := valid.error_lt
      next_size := valid.next_size
      next_lt := valid.next_lt
      tokenOf_size := tokenShape
      tokenOf_known := known
      error_rejects := rejects
      kindNames_nodup := valid.kindNames_nodup
      kindNames_free := valid.kindNames_free
      classes_valid := valid.classes_valid }

/-- When everything but the accepted kinds is in order, the first defect is one of
the accepted kinds. -/
theorem defect?_of_silenced (valid : parts.silenced.Valid) :
    parts.defect? = parts.kindDefect?.or parts.errorStateDefect? := by
  have counts : parts.countDefect? = none := valid.countDefect?_eq_none
  have special : parts.specialStateDefect? = none := valid.specialStateDefect?_eq_none
  have shape : parts.shapeDefect? = none := by
    simpa [shapeDefect?, silenced] using valid.shapeDefect?_eq_none
  have targets : parts.targetDefect? = none := valid.targetDefect?_eq_none
  have names : parts.nameDefect? = none := valid.nameDefect?_eq_none
  have classes : parts.classes.defect? parts.classCount = none :=
    valid.classes_valid.defect?_eq_none
  simp only [defect?, counts, special, shape, targets, names, classes, Option.none_or,
    Option.or_none]

end Parts

namespace Builder

variable {builder : Builder}

theorem edgeDefect?_eq_none_iff {stateCount : Nat} {edge : Edge} :
    edgeDefect? stateCount edge = none ↔
      edge.lo ≤ edge.hi ∧ edge.target.toNat < stateCount := by
  rw [edgeDefect?]
  split
  case isTrue reversed => simp [Char.not_le.mpr reversed]
  case isFalse ordered =>
    rw [Char.not_lt] at ordered
    simp [ordered]

theorem rulesDefect?_eq_none_iff {stateCount : Nat} {rules : StateRules} :
    rulesDefect? stateCount rules = none ↔
      (∀ edge ∈ rules.edges, edge.lo ≤ edge.hi ∧ edge.target.toNat < stateCount) ∧
        ∀ target ∈ rules.fallback, target.toNat < stateCount := by
  rw [rulesDefect?, Option.or_eq_none_iff, List.findSome?_eq_none_iff, Option.map_eq_none_iff,
    Option.filter_eq_none_iff]
  simp [edgeDefect?_eq_none_iff]

theorem defect?_eq_none_iff :
    builder.defect? = none ↔ builder.dangling = none ∧ ∀ rules ∈ builder.states,
      (∀ edge ∈ rules.edges, edge.lo ≤ edge.hi ∧ edge.target.toNat < builder.states.size) ∧
        ∀ target ∈ rules.fallback, target.toNat < builder.states.size := by
  rw [defect?, Option.or_eq_none_iff, Option.map_eq_none_iff, List.findSome?_eq_none_iff]
  simp only [rulesDefect?_eq_none_iff, Array.mem_toList_iff]

theorem compile_eq_of_defect {defect : Defect} (found : builder.defect? = some defect) :
    builder.compile = .error defect := by
  simp only [compile, found]

theorem compile_eq_of_fewClasses (sound : builder.defect? = none)
    (fewClasses : builder.columns.length ≤ Parts.maxClassCount) :
    builder.compile = .ok builder.parts := by
  simp only [compile, sound, if_neg (Nat.not_lt.mpr fewClasses)]

theorem compile_eq_of_manyClasses (sound : builder.defect? = none)
    (manyClasses : Parts.maxClassCount < builder.columns.length) :
    builder.compile = .error (.tooManyClasses (Parts.maxClassCount + 1)) := by
  simp only [compile, sound, if_pos manyClasses]

theorem targetFrom_lt {stateCount : Nat} {rules : StateRules} (twoStates : 2 ≤ stateCount)
    (edgesKnown : ∀ edge ∈ rules.edges, edge.target.toNat < stateCount)
    (fallbackKnown : ∀ target ∈ rules.fallback, target.toNat < stateCount)
    (state : Nat) (point : Option Nat) :
    (targetFrom state rules point).toNat < stateCount := by
  have errorKnown : error.toNat < stateCount := twoStates
  rw [targetFrom]
  split
  case isTrue => exact errorKnown
  case isFalse =>
    cases found : rules.target? point with
    | none => exact errorKnown
    | some target =>
        rw [StateRules.target?, Option.or_eq_some_iff] at found
        rcases found with byEdge | ⟨_, byFallback⟩
        · obtain ⟨code, _, targetFound⟩ := Option.bind_eq_some_iff.mp byEdge
          obtain ⟨edge, edgeFound, rfl⟩ := Option.map_eq_some_iff.mp targetFound
          exact edgesKnown edge (Array.mem_toList_iff.mp (List.mem_of_find?_eq_some edgeFound))
        · exact fallbackKnown target byFallback

theorem exists_column_of_mem_columns {column : List StateId} (member : column ∈ builder.columns) :
    ∃ point, column = builder.column point := by
  rw [columns, List.mem_eraseDups, List.mem_cons, List.mem_map] at member
  rcases member with rfl | ⟨interval, _, rfl⟩
  · exact ⟨none, rfl⟩
  · exact ⟨some interval.first, rfl⟩

theorem columns_length_pos (builder : Builder) : 0 < builder.columns.length := by
  apply List.length_pos_of_mem (a := builder.column none)
  rw [columns, List.mem_eraseDups]
  exact List.mem_cons_self

theorem matrix_size (builder : Builder) (columns : List (List StateId)) :
    (builder.matrix columns).size = builder.states.size * columns.length := by
  simp [matrix, List.length_flatMap, List.map_const']

/-- Every target of a column is a state. -/
theorem matrix_lt (sound : builder.defect? = none) (twoStates : 2 ≤ builder.states.size) :
    ∀ target ∈ builder.matrix builder.columns, target.toNat < builder.states.size := by
  intro target member
  rw [matrix, List.mem_toArray, List.mem_flatMap] at member
  obtain ⟨state, stateMember, member⟩ := member
  rw [List.map_map] at member
  obtain ⟨column, columnMember, rfl⟩ := List.mem_map.mp member
  obtain ⟨point, rfl⟩ := exists_column_of_mem_columns columnMember
  have known := List.mem_range.mp stateMember
  have entry := builder.column_getElem? state point
  rw [Array.getElem?_eq_getElem known, Option.map_some] at entry
  obtain ⟨edgesSound, fallbackKnown⟩ :=
    (defect?_eq_none_iff.mp sound).2 _ (Array.getElem_mem known)
  simp only [Function.comp_apply, Array.getD_eq_getD_getElem?, List.getElem?_toArray, entry,
    Option.getD_some]
  exact targetFrom_lt twoStates (fun edge member => (edgesSound edge member).2) fallbackKnown
    state point

/-- The class of a code point is one of the classes. -/
theorem classOfColumn_lt (fewClasses : builder.columns.length ≤ Parts.maxClassCount) {point : Nat}
    (pointLe : point ≤ lastCodePoint) :
    (classOfColumn builder.columns (builder.column (some point))).toUInt32 <
      UInt32.ofNat builder.columns.length := by
  have member := builder.column_mem_columns pointLe
  have countEq : (UInt32.ofNat builder.columns.length).toNat = builder.columns.length :=
    UInt32.toNat_ofNat_of_lt' (Nat.lt_of_le_of_lt fewClasses (by decide))
  rw [UInt32.lt_iff_toNat_lt, UInt16.toNat_toUInt32, toNat_classOfColumn fewClasses member,
    countEq]
  exact List.idxOf_lt_length_of_mem member

theorem pairwise_zip_tail {cuts : List Nat} (ascending : cuts.Pairwise (· < ·)) :
    (cuts.zip cuts.tail).Pairwise fun before after => before.2 ≤ after.1 := by
  induction cuts with
  | nil => exact .nil
  | cons first cuts ih =>
      obtain ⟨_, ascendingRest⟩ := List.pairwise_cons.mp ascending
      cases cuts with
      | nil => exact .nil
      | cons second cuts =>
          rw [List.tail_cons, List.zip_cons_cons, List.pairwise_cons]
          refine ⟨?_, ih ascendingRest⟩
          rintro ⟨cut, stop⟩ neighbours
          rcases List.mem_cons.mp (List.of_mem_zip neighbours).1 with rfl | behind
          · exact Nat.le_refl cut
          · exact Nat.le_of_lt ((List.pairwise_cons.mp ascendingRest).1 cut behind)

/-- Each interval ends before the next one begins. -/
theorem intervals_ascending (builder : Builder) :
    builder.intervals.Pairwise fun before after => before.last < after.first := by
  rw [intervals, List.pairwise_map]
  refine (pairwise_zip_tail builder.cuts_ascending).imp_of_mem ?_
  rintro ⟨first, stop⟩ ⟨next, _⟩ neighbours _ ordered
  have nonempty := (neighbours_of_mem_zip_tail builder.cuts_ascending neighbours).1
  simp only at ordered ⊢
  omega

theorem glueRange_ascending {range : ClassRange} {ranges : List ClassRange}
    (ascending : (range :: ranges).Pairwise fun before after => before.hi < after.lo) :
    (glueRange range ranges).Pairwise fun before after => before.hi < after.lo := by
  cases ranges with
  | nil => exact ascending
  | cons next ranges =>
      rw [glueRange]
      split
      case isFalse => exact ascending
      case isTrue =>
        have nextAscending := (List.pairwise_cons.mp ascending).2
        exact List.pairwise_cons.mpr (List.pairwise_cons.mp nextAscending)

theorem foldr_glueRange_ascending {ranges : List ClassRange}
    (ascending : ranges.Pairwise fun before after => before.hi < after.lo) :
    (ranges.foldr glueRange []).Pairwise fun before after => before.hi < after.lo := by
  induction ranges with
  | nil => exact .nil
  | cons range ranges ih =>
      obtain ⟨rangeBefore, ascendingRest⟩ := List.pairwise_cons.mp ascending
      have beforeGlued : ∀ other ∈ ranges.foldr glueRange [], range.hi < other.lo :=
        foldr_glueRange_forall _ (fun _ _ _ before _ => before) rangeBefore
      exact glueRange_ascending (List.pairwise_cons.mpr ⟨beforeGlued, ih ascendingRest⟩)

/-- What the range of each interval outside ASCII has, and gluing keeps, all ranges
have. -/
theorem classMap_ranges_forall {columns : List (List StateId)} (good : ClassRange → Prop)
    (joins : ∀ range next : ClassRange, range.hi.toNat + 1 = next.lo.toNat →
      good range → good next → good ⟨range.lo, next.hi, range.cls⟩)
    (each : ∀ interval ∈ builder.intervals, asciiCount ≤ interval.first →
      good ⟨UInt32.ofNat interval.first, UInt32.ofNat interval.last,
        classOfColumn columns (builder.column (some interval.first))⟩) :
    ∀ range ∈ (builder.classMap columns).ranges, good range := by
  intro glued gluedMember
  rw [classMap, List.mem_toArray] at gluedMember
  refine foldr_glueRange_forall good joins ?_ glued gluedMember
  intro range rangeMember
  obtain ⟨mapped, _⟩ := List.mem_filter.mp rangeMember
  obtain ⟨interval, filtered, rfl⟩ := List.mem_map.mp mapped
  obtain ⟨member, outside⟩ := List.mem_filter.mp filtered
  exact each interval member (by simpa using outside)

theorem classRanges_ascending (builder : Builder) (columns : List (List StateId)) :
    (builder.classRanges columns).Pairwise fun before after => before.hi < after.lo := by
  apply foldr_glueRange_ascending
  apply List.Pairwise.filter
  rw [List.pairwise_map]
  refine (builder.intervals_ascending.filter _).imp_of_mem ?_
  intro before after beforeMember afterMember ordered
  have lastEq := (toNat_interval_ends (List.mem_filter.mp beforeMember).1).2
  have firstEq := (toNat_interval_ends (List.mem_filter.mp afterMember).1).1
  rw [UInt32.lt_iff_toNat_lt, lastEq, firstEq]
  exact ordered

theorem classMap_valid (fewClasses : builder.columns.length ≤ Parts.maxClassCount) :
    (builder.classMap builder.columns).Valid (UInt32.ofNat builder.columns.length) := by
  constructor
  case ascii_lt =>
    intro cls member
    obtain ⟨point, rfl⟩ := Vector.mem_ofFn.mp member
    apply classOfColumn_lt fewClasses
    have pointLt := point.isLt
    simp only [asciiCount, lastCodePoint] at pointLt ⊢
    omega
  case ascending => exact builder.classRanges_ascending builder.columns
  case lo_le_hi =>
    apply classMap_ranges_forall (fun range => range.lo ≤ range.hi) ordered_of_touching
    intro interval member _
    obtain ⟨firstEq, lastEq⟩ := toNat_interval_ends member
    rw [UInt32.le_iff_toNat_le, firstEq, lastEq]
    exact (interval_spec member).1
  case ascii_le_lo =>
    apply classMap_ranges_forall (fun range => asciiCount ≤ range.lo.toNat)
      (fun _ _ _ outside _ => outside)
    intro interval member outside
    rwa [(toNat_interval_ends member).1]
  case hi_le_last =>
    apply classMap_ranges_forall (fun range => range.hi.toNat ≤ lastCodePoint)
      (fun _ _ _ _ inside => inside)
    intro interval member _
    rw [(toNat_interval_ends member).2]
    exact (interval_spec member).2.1
  case range_lt =>
    apply classMap_ranges_forall
      (fun range => range.cls.toUInt32 < UInt32.ofNat builder.columns.length)
      (fun _ _ _ known _ => known)
    intro interval member _
    obtain ⟨nonempty, lastLe, _⟩ := interval_spec member
    exact classOfColumn_lt fewClasses (nonempty.trans lastLe)

/-- Apart from the accepted kinds nothing is wrong with the parts of a description
that has no defects, few enough classes and states, and names that may be used. -/
theorem silenced_parts_valid (sound : builder.defect? = none)
    (fewClasses : builder.columns.length ≤ Parts.maxClassCount)
    (twoStates : 2 ≤ builder.states.size) (fewStates : builder.states.size < UInt32.size)
    (namesNodup : builder.kindNames.toList.Nodup)
    (namesFree : KindId.unrecognizedName ∉ builder.kindNames) :
    builder.parts.silenced.Valid := by
  have stateCountEq : (UInt32.ofNat builder.states.size).toNat = builder.states.size :=
    UInt32.toNat_ofNat_of_lt' fewStates
  have classCountEq : (UInt32.ofNat builder.columns.length).toNat = builder.columns.length :=
    UInt32.toNat_ofNat_of_lt' (Nat.lt_of_le_of_lt fewClasses (by decide))
  have known : ∀ state : StateId, state.toNat < builder.states.size →
      state < UInt32.ofNat builder.states.size := by
    intro state stateLt
    rwa [UInt32.lt_iff_toNat_lt, stateCountEq]
  have errorKnown : error.toNat < builder.states.size := twoStates
  exact {
    stateCount_pos := by
      change 1 ≤ (UInt32.ofNat builder.states.size).toNat
      omega
    classCount_pos := by
      change 1 ≤ (UInt32.ofNat builder.columns.length).toNat
      rw [classCountEq]
      exact builder.columns_length_pos
    classCount_le := by
      change (UInt32.ofNat builder.columns.length).toNat ≤ Parts.maxClassCount
      rwa [classCountEq]
    start_lt := known start (Nat.lt_of_lt_of_le Nat.two_pos twoStates)
    error_lt := known error errorKnown
    next_size := by
      change (builder.matrix builder.columns).size =
        (UInt32.ofNat builder.states.size).toNat * (UInt32.ofNat builder.columns.length).toNat
      rw [stateCountEq, classCountEq, matrix_size]
    next_lt := fun target member => known target (matrix_lt sound twoStates target member)
    tokenOf_size := by
      change _ = (UInt32.ofNat builder.states.size).toNat
      rw [stateCountEq, Parts.silenced, Array.size_map]
      exact Array.size_map
    tokenOf_known := by
      intro kind member
      obtain ⟨_, _, rfl⟩ := Array.mem_map.mp member
      exact .inl rfl
    error_rejects := by
      change ((builder.parts.tokenOf.map fun _ => KindId.absent)[error.toNat]?) = _
      have errorEntry : error.toNat < builder.parts.tokenOf.size := by
        rwa [parts, Array.size_map]
      rw [Array.getElem?_map, Array.getElem?_eq_getElem errorEntry, Option.map_some]
    kindNames_nodup := namesNodup
    kindNames_free := namesFree
    classes_valid := classMap_valid fewClasses }

end Builder

end MaximalMunch
