import MaximalMunch.Proofs.CompiledClasses
import Mathlib.Data.List.Basic

/-!
# The table of a compiled description

The matrix of a description holds, row by row, the columns of all classes.  So a
character leads from a state to the target that the rules of the state name,
and a state accepts what its rules say.
-/

namespace MaximalMunch

theorem getElem?_flatMap_of_length_eq {α β : Type} {rowOf : α → List β} {width : Nat}
    (uniform : ∀ row, (rowOf row).length = width) (rows : List α) (index : Nat)
    {place : Nat} (placeLt : place < width) :
    (rows.flatMap rowOf)[index * width + place]? =
      rows[index]?.bind fun row => (rowOf row)[place]? := by
  induction rows generalizing index with
  | nil => simp
  | cons row rows ih =>
      rw [List.flatMap_cons]
      cases index with
      | zero =>
          rw [Nat.zero_mul, Nat.zero_add,
            List.getElem?_append_left (by rw [uniform]; exact placeLt)]
          rfl
      | succ index =>
          have behind : (index + 1) * width + place = width + (index * width + place) := by
            rw [Nat.succ_mul]
            omega
          rw [behind, List.getElem?_append_right (by rw [uniform]; omega), uniform,
            Nat.add_sub_cancel_left, ih]
          rfl

namespace Builder

variable {builder : Builder} {table : Table} {parts : Parts}

theorem compile_eq_ok (compiled : builder.compile = .ok parts) :
    builder.defect? = none ∧ builder.columns.length ≤ Parts.maxClassCount ∧
      parts = builder.parts := by
  rw [compile] at compiled
  split at compiled
  case h_1 => cases compiled
  case h_2 sound =>
    split at compiled
    case isTrue => cases compiled
    case isFalse fewClasses =>
      exact ⟨sound, Nat.le_of_not_lt fewClasses, (Except.ok.inj compiled).symm⟩

/-- A table that was built has the parts that its description compiles to. -/
theorem compile_of_build (built : builder.build = .ok table) :
    builder.compile = .ok table.parts := by
  rw [build] at built
  cases compiled : builder.compile with
  | error defect =>
      rw [compiled] at built
      cases built
  | ok parts =>
      rw [compiled] at built
      change Table.ofParts parts = .ok table at built
      rw [Table.ofParts] at built
      split at built
      · cases built
      · cases built
        rfl

theorem parts_of_build (built : builder.build = .ok table) : table.parts = builder.parts :=
  (compile_eq_ok (compile_of_build built)).2.2

theorem fewClasses_of_build (built : builder.build = .ok table) :
    builder.columns.length ≤ Parts.maxClassCount :=
  (compile_eq_ok (compile_of_build built)).2.1

/-- A description that is built yields a table. -/
theorem exists_eq_ok_of_builds (builds : builder.build.toOption.isSome = true) :
    ∃ table, builder.build = .ok table := by
  cases built : builder.build with
  | error defect =>
      rw [built] at builds
      cases builds
  | ok table => exact ⟨table, rfl⟩

/-- All of a column is read back from the matrix. -/
theorem matrix_getElem? {columns : List (List StateId)} {column : List StateId}
    (member : column ∈ columns) {state : Nat} (known : state < builder.states.size) :
    (builder.matrix columns)[state * columns.length + columns.idxOf column]? =
      some (column.getD state error) := by
  have placeLt : columns.idxOf column < columns.length :=
    List.idxOf_lt_length_of_mem member
  rw [matrix, List.getElem?_toArray,
    getElem?_flatMap_of_length_eq (by simp) _ state placeLt,
    List.getElem?_range known, Option.bind_some, List.getElem?_map, List.getElem?_map,
    List.getElem?_idxOf member]
  simp

theorem column_getElem? (builder : Builder) (state : Nat) (point : Option Nat) :
    (builder.column point)[state]? =
      builder.states[state]?.map fun rules => targetFrom state rules point := by
  simp [column, List.getElem?_zipIdx, Function.comp_def]

theorem toNat_classOfColumn {columns : List (List StateId)} {column : List StateId}
    (fewClasses : columns.length ≤ Parts.maxClassCount) (member : column ∈ columns) :
    (classOfColumn columns column).toNat = columns.idxOf column := by
  have classLt := List.idxOf_lt_length_of_mem member
  rw [classOfColumn]
  refine UInt16.toNat_ofNat_of_lt' ?_
  simp only [Parts.maxClassCount] at fewClasses
  simp only [UInt16.size]
  omega

theorem classCount_of_build (built : builder.build = .ok table) :
    table.classCount = builder.columns.length := by
  rw [Table.classCount, parts_of_build built]
  exact UInt32.toNat_ofNat_of_lt' (Nat.lt_of_le_of_lt (fewClasses_of_build built) (by decide))

/-- A character has the class of its column. -/
theorem toNat_classOf_of_build (built : builder.build = .ok table) (c : Char) :
    (table.classOf c).toNat = builder.columns.idxOf (builder.column (some c.toNat)) := by
  have member := builder.column_mem_columns (toNat_le_lastCodePoint c)
  have classesValid := table.valid.classes_valid
  rw [parts_of_build built] at classesValid
  rw [Table.classOf, parts_of_build built, parts, classOf_classMap classesValid,
    toNat_classOfColumn (fewClasses_of_build built) member]

/-- A character leads to the target that the rules of the state name. -/
theorem transition?_of_build (built : builder.build = .ok table) {state : StateId}
    {rules : StateRules} (known : builder.states[state.toNat]? = some rules) (c : Char) :
    table.transition? state c =
      some (targetFrom state.toNat rules (some c.toNat)) := by
  have member := builder.column_mem_columns (toNat_le_lastCodePoint c)
  have stateLt : state.toNat < builder.states.size :=
    (Array.getElem?_eq_some_iff.mp known).1
  have targetEq := builder.column_getElem? state.toNat (some c.toNat)
  rw [known, Option.map_some] at targetEq
  rw [Table.transition?, Table.transitionOn?, classCount_of_build built,
    toNat_classOf_of_build built, parts_of_build built, parts, matrix_getElem? member stateLt,
    List.getD_eq_getElem?_getD, targetEq, Option.getD_some]

theorem kindOf?_of_build (built : builder.build = .ok table) {state : StateId}
    {rules : StateRules} (known : builder.states[state.toNat]? = some rules) :
    table.kindOf? state = some (rules.accepts.filter (· ≠ KindId.absent)) := by
  rw [Table.kindOf?, Table.storedKind?, parts_of_build built, parts]
  simp only [Array.getElem?_map, known, Option.map_some]
  cases rules.accepts with
  | none => simp
  | some kind => by_cases absent : kind = KindId.absent <;> simp [absent, Option.filter]

theorem kindOf_of_build (built : builder.build = .ok table) {state : StateId}
    {rules : StateRules} (known : builder.states[state.toNat]? = some rules) :
    table.kindOf state = rules.accepts.filter (· ≠ KindId.absent) := by
  rw [Table.kindOf, kindOf?_of_build built known, Option.join_some]

theorem error_of_build (built : builder.build = .ok table) : table.error = error := by
  rw [Table.error, parts_of_build built, parts]

theorem start_of_build (built : builder.build = .ok table) : table.start = start := by
  rw [Table.start, parts_of_build built, parts]

theorem kinds_of_build (built : builder.build = .ok table) :
    table.kinds = builder.kindNames.toList.zipIdx.map
      fun (name, index) => (UInt32.ofNat index, name) := by
  rw [Table.kinds, parts_of_build built, parts]

end Builder

end MaximalMunch
