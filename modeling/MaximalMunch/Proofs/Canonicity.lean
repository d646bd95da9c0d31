import MaximalMunch.Proofs.Edges
import MaximalMunch.Proofs.Pointwise

/-!
# One table for one automaton

Descriptions may cut the code points in entirely different ways and still lead
from each state to the same state on each code point.  Then they compile to the
same table, down to the numbers of the classes: it makes no difference how edges
are split, merged or ordered as long as they do not conflict, nor whether there
are edges that never decide.
-/

namespace MaximalMunch

namespace Edge

/-- The target of the first edge that covers the code point. -/
def firstTarget? (edges : List Edge) (point : Nat) : Option StateId :=
  (edges.find? fun edge => edge.covers point).map Edge.target

/-- One list of edges becomes the other by steps that leave no code point a new
target.  An edge is split or two are merged, two neighbours that do not conflict
change places, or an edge that never decides comes or goes. -/
inductive Recut : List Edge → List Edge → Prop
  | refl (edges : List Edge) : Recut edges edges
  | symm {edges others : List Edge} : Recut edges others → Recut others edges
  | trans {edges middle others : List Edge} :
      Recut edges middle → Recut middle others → Recut edges others
  | cons (edge : Edge) {edges others : List Edge} :
      Recut edges others → Recut (edge :: edges) (edge :: others)
  -- Surrogates count as well: an edge from below them to above them covers them,
  -- and two edges that meet there do not.
  | split {whole first second : Edge} (edges : List Edge)
      (firstTarget : first.target = whole.target) (secondTarget : second.target = whole.target)
      (joined : ∀ point, whole.covers point = true ↔
        first.covers point = true ∨ second.covers point = true) :
      Recut (whole :: edges) (first :: second :: edges)
  | swap {first second : Edge} (edges : List Edge)
      (compatible : first.target = second.target ∨ first.Apart second) :
      Recut (first :: second :: edges) (second :: first :: edges)
  | shadowed (earlier later : List Edge) {edge : Edge}
      (hidden : ∀ point, edge.covers point = true →
        ∃ before ∈ earlier, before.covers point = true) :
      Recut (earlier ++ edge :: later) (earlier ++ later)

theorem covers_iff {edge : Edge} {point : Nat} :
    edge.covers point = true ↔ edge.lo.toNat ≤ point ∧ point ≤ edge.hi.toNat := by
  simp [covers]

theorem firstTarget?_cons (edge : Edge) (edges : List Edge) (point : Nat) :
    firstTarget? (edge :: edges) point =
      if edge.covers point then some edge.target else firstTarget? edges point := by
  rw [firstTarget?, List.find?_cons]
  cases edge.covers point <;> rfl

theorem firstTarget?_append (earlier later : List Edge) (point : Nat) :
    firstTarget? (earlier ++ later) point =
      (firstTarget? earlier point).or (firstTarget? later point) := by
  rw [firstTarget?, List.find?_append, Option.map_or]
  rfl

theorem firstTarget?_isSome_of_covers {edges : List Edge} {edge : Edge} {point : Nat}
    (member : edge ∈ edges) (covered : edge.covers point = true) :
    (firstTarget? edges point).isSome = true := by
  rw [firstTarget?, Option.isSome_map, List.find?_isSome]
  exact ⟨edge, member, covered⟩

theorem Apart.not_covers_both {first second : Edge} (apart : first.Apart second) {point : Nat}
    (covered : first.covers point = true) : second.covers point = false := by
  simp only [Apart, Char.lt_def, UInt32.lt_iff_toNat_lt] at apart
  simp only [← Bool.not_eq_true, covers_iff, Char.toNat] at covered ⊢
  omega

theorem Recut.firstTarget?_eq {edges others : List Edge} (recut : Recut edges others)
    (point : Nat) : firstTarget? edges point = firstTarget? others point := by
  induction recut with
  | refl edges => rfl
  | symm _ ih => exact ih.symm
  | trans _ _ first second => exact first.trans second
  | cons edge _ ih => rw [firstTarget?_cons, firstTarget?_cons, ih]
  | @split whole first second edges firstTarget secondTarget joined =>
      simp only [firstTarget?_cons, firstTarget, secondTarget, joined, ite_or]
  | @swap first second edges compatible =>
      rw [firstTarget?_cons, firstTarget?_cons, firstTarget?_cons, firstTarget?_cons]
      -- The order can matter only where the first edge covers the code point.
      cases firstCovers : first.covers point with
      | false => rfl
      | true =>
          rcases compatible with sameTarget | apart
          · rw [sameTarget]
            cases second.covers point <;> rfl
          · rw [apart.not_covers_both firstCovers]
            rfl
  | @shadowed earlier later edge hidden =>
      rw [firstTarget?_append, firstTarget?_append, firstTarget?_cons]
      cases covered : edge.covers point with
      | false => rfl
      | true =>
          obtain ⟨before, member, beforeCovers⟩ := hidden point covered
          obtain ⟨target, decided⟩ :=
            Option.isSome_iff_exists.mp (firstTarget?_isSome_of_covers member beforeCovers)
          rw [decided, Option.some_or, Option.some_or]

end Edge

namespace Builder

/-- The descriptions have the same states and kinds, and on every code point, and
where no edge covers one, each state other than the error state leads to the
same state. -/
structure Alike (builder other : Builder) : Prop where
  states_size : builder.states.size = other.states.size
  kindNames_eq : builder.kindNames = other.kindNames
  accepts_eq : ∀ state, (builder.rulesAt state).accepts.getD KindId.absent =
    (other.rulesAt state).accepts.getD KindId.absent
  target_eq : ∀ state, state ≠ error → ∀ point ≤ lastCodePoint,
    ((builder.rulesAt state).target? (some point)).getD error =
      ((other.rulesAt state).target? (some point)).getD error
  fallback_eq : ∀ state, state ≠ error →
    ((builder.rulesAt state).target? none).getD error =
      ((other.rulesAt state).target? none).getD error

variable {builder other : Builder} {table otherTable : Table}

/-- It makes no difference how the edges are cut, as long as each state falls to
the same state and accepts the same kind. -/
theorem alike_of_recut
    (states_size : builder.states.size = other.states.size)
    (kindNames_eq : builder.kindNames = other.kindNames)
    (accepts_eq : ∀ state, (builder.rulesAt state).accepts = (other.rulesAt state).accepts)
    (fallback_eq : ∀ state, (builder.rulesAt state).fallback.getD error =
      (other.rulesAt state).fallback.getD error)
    (recut : ∀ state, Edge.Recut (builder.rulesAt state).edges.toList
      (other.rulesAt state).edges.toList) : builder.Alike other where
  states_size := states_size
  kindNames_eq := kindNames_eq
  accepts_eq state := congrArg (fun accepts => accepts.getD KindId.absent) (accepts_eq state)
  target_eq state _ point _ := by
    have sameEdges : (builder.rulesAt state).edgeTarget? point =
        (other.rulesAt state).edgeTarget? point := (recut state).firstTarget?_eq point
    rw [StateRules.target?, StateRules.target?, Option.bind_some, Option.bind_some, sameEdges,
      Option.getD_or, Option.getD_or, fallback_eq]
  fallback_eq state _ := fallback_eq state

/-- A table has room for the numbers of all states. -/
theorem states_size_le_of_build (built : builder.build = .ok table) :
    builder.states.size ≤ UInt32.size := by
  rw [← stateCount_of_build built]
  exact Nat.le_of_lt table.parts.stateCount.toNat_lt

/-- The same numbers name states of both descriptions. -/
theorem Alike.states_cases (alike : builder.Alike other)
    (fewStates : builder.states.size ≤ UInt32.size) (index : Nat) :
    (∃ state : StateId, state.toNat = index ∧
      builder.states[index]? = some (builder.rulesAt state) ∧
      other.states[index]? = some (other.rulesAt state)) ∨
    builder.states[index]? = none ∧ other.states[index]? = none := by
  by_cases known : index < builder.states.size
  · left
    obtain ⟨state, stateEq, found⟩ := exists_rulesAt_eq fewStates known
    refine ⟨state, stateEq, found, ?_⟩
    subst stateEq
    exact rulesAt_known (alike.states_size ▸ known)
  · right
    have missing := Nat.le_of_not_lt known
    exact ⟨Array.getElem?_eq_none missing,
      Array.getElem?_eq_none (alike.states_size ▸ missing)⟩

theorem Alike.targetFrom_eq (alike : builder.Alike other) (state : StateId)
    {point : Option Nat} (pointLe : ∀ code ∈ point, code ≤ lastCodePoint) :
    targetFrom state.toNat (builder.rulesAt state) point =
      targetFrom state.toNat (other.rulesAt state) point := by
  by_cases isError : state = error
  · rw [targetFrom, targetFrom, if_pos (congrArg UInt32.toNat isError),
      if_pos (congrArg UInt32.toNat isError)]
  · have apart : state.toNat ≠ error.toNat := mt UInt32.toNat_inj.mp isError
    rw [targetFrom, targetFrom, if_neg apart, if_neg apart]
    cases point with
    | none => exact alike.fallback_eq state isError
    | some code => exact alike.target_eq state isError code (pointLe code rfl)

theorem Alike.column_eq (alike : builder.Alike other)
    (fewStates : builder.states.size ≤ UInt32.size) {point : Option Nat}
    (pointLe : ∀ code ∈ point, code ≤ lastCodePoint) :
    builder.column point = other.column point := by
  apply List.ext_getElem?
  intro index
  rw [column_getElem?, column_getElem?]
  rcases alike.states_cases fewStates index with
    ⟨state, rfl, found, foundOther⟩ | ⟨missing, missingOther⟩
  · rw [found, foundOther, Option.map_some, Option.map_some, alike.targetFrom_eq state pointLe]
  · rw [missing, missingOther, Option.map_none]

theorem Alike.columns_eq (alike : builder.Alike other)
    (fewStates : builder.states.size ≤ UInt32.size) : builder.columns = other.columns := by
  have samePoints : (List.range (lastCodePoint + 1)).map (fun point => builder.column (some point)) =
      (List.range (lastCodePoint + 1)).map fun point => other.column (some point) := by
    apply List.map_congr_left
    intro point member
    apply alike.column_eq fewStates
    rintro code ⟨⟩
    exact Nat.le_of_lt_succ (List.mem_range.mp member)
  have sameOther : builder.column none = other.column none :=
    alike.column_eq fewStates (fun _ member => nomatch member)
  rw [columns_eq_eraseDups_points, columns_eq_eraseDups_points, samePoints, sameOther]

theorem Alike.classMap_eq (alike : builder.Alike other)
    (fewStates : builder.states.size ≤ UInt32.size) (columns : List (List StateId)) :
    builder.classMap columns = other.classMap columns := by
  have sameColumn : ∀ point ≤ lastCodePoint,
      builder.column (some point) = other.column (some point) := by
    intro point pointLe
    apply alike.column_eq fewStates
    rintro code ⟨⟩
    exact pointLe
  have sameRanges : builder.classRanges columns = other.classRanges columns := by
    rw [classRanges_eq_foldr_points, classRanges_eq_foldr_points]
    apply List.foldr_ext
    intro point member ranges
    have pointLe := Nat.le_of_lt_succ (List.mem_range.mp member)
    simp only [addRange, sameColumn point pointLe]
  rw [classMap, classMap, sameRanges]
  congr 2
  funext point
  have pointLe : point.val ≤ lastCodePoint := by
    have := point.isLt
    simp only [asciiCount, lastCodePoint] at this ⊢
    omega
  rw [sameColumn point.val pointLe]

theorem Alike.tokenOf_eq (alike : builder.Alike other)
    (fewStates : builder.states.size ≤ UInt32.size) :
    (builder.states.map fun rules => rules.accepts.getD KindId.absent) =
      other.states.map fun rules => rules.accepts.getD KindId.absent := by
  apply Array.ext_getElem?
  intro index
  rw [Array.getElem?_map, Array.getElem?_map]
  rcases alike.states_cases fewStates index with
    ⟨state, rfl, found, foundOther⟩ | ⟨missing, missingOther⟩
  · rw [found, foundOther, Option.map_some, Option.map_some, alike.accepts_eq]
  · rw [missing, missingOther, Option.map_none]

theorem Alike.parts_eq (alike : builder.Alike other)
    (fewStates : builder.states.size ≤ UInt32.size) : builder.parts = other.parts := by
  have sameMatrix : builder.matrix builder.columns = other.matrix other.columns := by
    rw [matrix, matrix, alike.states_size, alike.columns_eq fewStates]
  rw [parts, parts, sameMatrix, alike.tokenOf_eq fewStates, alike.kindNames_eq,
    alike.states_size, alike.columns_eq fewStates, alike.classMap_eq fewStates]

/-- Descriptions that lead from each state to the same state on each code point
are built into the same table. -/
theorem build_eq_of_alike (alike : builder.Alike other) (built : builder.build = .ok table)
    (builtOther : other.build = .ok otherTable) : table = otherTable := by
  have sameParts : table.parts = otherTable.parts := by
    rw [parts_of_build built, parts_of_build builtOther,
      alike.parts_eq (states_size_le_of_build built)]
  -- Besides its parts a table holds only the proof that they are valid.
  cases table
  cases otherTable
  cases sameParts
  rfl

/-- One edge for a range of letters that goes beyond ASCII. -/
def oneEdge : List Operation :=
  [.kind "LETTER", .accepting 0, .onRange 0 'a' 'ÿ' 2]

/-- The same edge in two pieces that overlap, with an edge that never decides and
a fallback that says nothing new. -/
def manyEdges : List Operation :=
  [.kind "LETTER", .accepting 0, .onRange 0 'k' 'ÿ' 2, .onRange 0 'a' 'z' 2, .on 0 'q' 0,
    .otherwise 0 1]

theorem recut_oneEdge_manyEdges (state : StateId) :
    Edge.Recut (edgesOf state oneEdge) (edgesOf state manyEdges) := by
  by_cases initial : state = 0
  · subst initial
    change Edge.Recut [⟨'a', 'ÿ', 2⟩] [⟨'k', 'ÿ', 2⟩, ⟨'a', 'z', 2⟩, ⟨'q', 'q', 0⟩]
    have split : Edge.Recut [⟨'a', 'ÿ', 2⟩] [⟨'a', 'z', 2⟩, ⟨'k', 'ÿ', 2⟩] := by
      refine Edge.Recut.split [] rfl rfl fun point => ?_
      simp only [Edge.covers_iff, Char.reduceToNat]
      omega
    have swapped : Edge.Recut [⟨'a', 'z', 2⟩, ⟨'k', 'ÿ', 2⟩] [⟨'k', 'ÿ', 2⟩, ⟨'a', 'z', 2⟩] :=
      .swap _ (.inl rfl)
    have shadowed : Edge.Recut [⟨'k', 'ÿ', 2⟩, ⟨'a', 'z', 2⟩, ⟨'q', 'q', 0⟩]
        [⟨'k', 'ÿ', 2⟩, ⟨'a', 'z', 2⟩] := by
      apply Edge.Recut.shadowed [⟨'k', 'ÿ', 2⟩, ⟨'a', 'z', 2⟩] []
      intro point covered
      refine ⟨_, List.mem_cons_self, ?_⟩
      simp only [Edge.covers_iff, Char.reduceToNat] at covered ⊢
      omega
    exact (split.trans swapped).trans shadowed.symm
  · have noEdge : edgesOf state oneEdge = [] := by
      simp [edgesOf, oneEdge, Operation.edgesFrom, Ne.symm initial]
    have noneOfMany : edgesOf state manyEdges = [] := by
      simp [edgesOf, manyEdges, Operation.edgesFrom, Ne.symm initial]
    rw [noEdge, noneOfMany]
    exact .refl []

theorem alike_oneEdge_manyEdges : (empty.perform oneEdge).Alike (empty.perform manyEdges) := by
  have oneRecords := records_of_perform oneEdge (by decide +kernel)
  have manyRecords := records_of_perform manyEdges (by decide +kernel)
  apply alike_of_recut
  · rw [oneRecords.states_size, manyRecords.states_size]
    rfl
  · decide +kernel
  · intro state
    rw [oneRecords.accepts_eq, manyRecords.accepts_eq]
    rfl
  · intro state
    rw [oneRecords.fallback_eq, manyRecords.fallback_eq]
    by_cases initial : state = 0
    · subst initial
      rfl
    · simp [lastFallback?, oneEdge, manyEdges, List.findSome?, Operation.fallbackOf?,
        Ne.symm initial]
  · intro state
    rw [oneRecords.edges_eq, manyRecords.edges_eq]
    exact recut_oneEdge_manyEdges state

theorem build_eq_of_alike_oneEdge :
    ∃ table, (empty.perform oneEdge).build = .ok table ∧
      (empty.perform manyEdges).build = .ok table := by
  obtain ⟨table, built⟩ :=
    exists_eq_ok_of_builds (show (empty.perform oneEdge).build.toOption.isSome by decide +kernel)
  obtain ⟨otherTable, builtOther⟩ :=
    exists_eq_ok_of_builds (show (empty.perform manyEdges).build.toOption.isSome by decide +kernel)
  have same : table = otherTable := build_eq_of_alike alike_oneEdge_manyEdges built builtOther
  exact ⟨table, built, same ▸ builtOther⟩

end Builder

end MaximalMunch
