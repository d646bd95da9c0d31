import MaximalMunch.Builder.Compile
import Mathlib.Data.List.Find

/-!
# Columns of a description

No edge begins or ends between two neighbouring cuts, so all code points of an
interval have the column of its first one, and the intervals cover all code
points.
-/

namespace MaximalMunch

namespace Builder

/-- No cut lies strictly between two neighbours. -/
theorem neighbours_of_mem_zip_tail {cuts : List Nat} (ascending : cuts.Pairwise (· < ·))
    {first stop : Nat} (neighbours : (first, stop) ∈ cuts.zip cuts.tail) :
    first < stop ∧ first ∈ cuts ∧ stop ∈ cuts ∧
      ∀ cut ∈ cuts, cut ≤ first ∨ stop ≤ cut := by
  induction cuts with
  | nil => cases neighbours
  | cons head cuts ih =>
      cases cuts with
      | nil => cases neighbours
      | cons second cuts =>
          obtain ⟨headFirst, ascendingRest⟩ := List.pairwise_cons.mp ascending
          rw [List.tail_cons, List.zip_cons_cons, List.mem_cons] at neighbours
          rcases neighbours with equal | neighbours
          · obtain ⟨rfl, rfl⟩ := Prod.mk.inj equal
            refine ⟨headFirst stop List.mem_cons_self, by simp, by simp, ?_⟩
            intro cut member
            rcases List.mem_cons.mp member with rfl | member
            · exact .inl (Nat.le_refl cut)
            · rcases List.mem_cons.mp member with rfl | member
              · exact .inr (Nat.le_refl cut)
              · exact .inr (Nat.le_of_lt ((List.pairwise_cons.mp ascendingRest).1 cut member))
          · obtain ⟨ordered, firstMember, stopMember, apart⟩ := ih ascendingRest neighbours
            refine ⟨ordered, List.mem_cons_of_mem head firstMember,
              List.mem_cons_of_mem head stopMember, ?_⟩
            intro cut member
            rcases List.mem_cons.mp member with rfl | member
            · exact .inl (Nat.le_of_lt (headFirst first firstMember))
            · exact apart cut member

/-- A number between two cuts lies between two neighbouring ones. -/
theorem exists_neighbours {cuts : List Nat} {point low high : Nat}
    (lowMember : low ∈ cuts) (lowLe : low ≤ point)
    (highMember : high ∈ cuts) (ltHigh : point < high)
    (ascending : cuts.Pairwise (· < ·)) :
    ∃ first stop, (first, stop) ∈ cuts.zip cuts.tail ∧ first ≤ point ∧ point < stop := by
  induction cuts generalizing low with
  | nil => cases lowMember
  | cons head cuts ih =>
      obtain ⟨headFirst, ascendingRest⟩ := List.pairwise_cons.mp ascending
      have headLe : head ≤ low := by
        rcases List.mem_cons.mp lowMember with rfl | member
        · exact Nat.le_refl low
        · exact Nat.le_of_lt (headFirst low member)
      have highRest : high ∈ cuts := by
        rcases List.mem_cons.mp highMember with rfl | member
        · omega
        · exact member
      cases cuts with
      | nil => cases highRest
      | cons second cuts =>
          by_cases behind : second ≤ point
          · obtain ⟨first, stop, neighbours, firstLe, ltStop⟩ :=
              ih List.mem_cons_self behind highRest ascendingRest
            exact ⟨first, stop, List.mem_cons_of_mem _ neighbours, firstLe, ltStop⟩
          · exact ⟨head, second, List.mem_cons_self, by omega, by omega⟩

variable {builder : Builder}

theorem mem_cuts {cut : Nat} : cut ∈ builder.cuts ↔ cut ∈ builder.cutPoints := by
  simp [cuts, Std.ExtTreeSet.mem_toList, Std.ExtTreeSet.mem_ofList]

theorem cuts_ascending (builder : Builder) : builder.cuts.Pairwise (· < ·) := by
  refine Std.ExtTreeSet.ordered_toList.imp ?_
  intro first second ordered
  exact Nat.compare_eq_lt.mp ordered

theorem toNat_le_lastCodePoint (c : Char) : c.toNat ≤ lastCodePoint := by
  have valid := c.valid
  simp only [UInt32.isValidChar, Nat.isValidChar] at valid
  change c.val.toNat ≤ lastCodePoint
  simp only [lastCodePoint]
  omega

theorem cut_le {cut : Nat} (member : cut ∈ builder.cuts) : cut ≤ lastCodePoint + 1 := by
  simp only [mem_cuts, cutPoints, List.mem_append, List.mem_cons, List.not_mem_nil,
    or_false, List.mem_flatMap] at member
  rcases member with (rfl | rfl | rfl) | ⟨rules, _, edge, _, rfl | rfl⟩
  · exact Nat.zero_le _
  · simp [asciiCount, lastCodePoint]
  · exact Nat.le_refl _
  · exact Nat.le_succ_of_le (toNat_le_lastCodePoint edge.lo)
  · exact Nat.succ_le_succ (toNat_le_lastCodePoint edge.hi)

theorem edge_cuts {rules : StateRules} (known : rules ∈ builder.states) {edge : Edge}
    (member : edge ∈ rules.edges) :
    edge.lo.toNat ∈ builder.cuts ∧ edge.hi.toNat + 1 ∈ builder.cuts := by
  have ends : ∀ cut ∈ [edge.lo.toNat, edge.hi.toNat + 1], cut ∈ builder.cuts := by
    intro cut cutEnd
    rw [mem_cuts, cutPoints]
    refine List.mem_append_right _ (List.mem_flatMap.mpr ⟨rules, by simpa using known, ?_⟩)
    exact List.mem_flatMap.mpr ⟨edge, by simpa using member, cutEnd⟩
  exact ⟨ends _ (by simp), ends _ (by simp)⟩

/-- An interval is not empty and ends within the code points, and no cut lies
inside it. -/
theorem interval_spec {interval : Interval} (member : interval ∈ builder.intervals) :
    interval.first ≤ interval.last ∧ interval.last ≤ lastCodePoint ∧
      ∀ cut ∈ builder.cuts, cut ≤ interval.first ∨ interval.last < cut := by
  obtain ⟨⟨first, stop⟩, neighbours, rfl⟩ := List.mem_map.mp member
  obtain ⟨ordered, _, stopMember, apart⟩ :=
    neighbours_of_mem_zip_tail builder.cuts_ascending neighbours
  have stopLe := cut_le stopMember
  refine ⟨by simp only; omega, by simp only; omega, ?_⟩
  intro cut cutMember
  have side := apart cut cutMember
  simp only
  omega

theorem exists_interval (builder : Builder) {point : Nat} (pointLe : point ≤ lastCodePoint) :
    ∃ interval ∈ builder.intervals, interval.first ≤ point ∧ point ≤ interval.last := by
  have zeroCut : 0 ∈ builder.cuts := by simp [mem_cuts, cutPoints]
  have lastCut : lastCodePoint + 1 ∈ builder.cuts := by simp [mem_cuts, cutPoints]
  obtain ⟨first, stop, neighbours, firstLe, ltStop⟩ :=
    exists_neighbours zeroCut (Nat.zero_le point) lastCut (Nat.lt_succ_of_le pointLe)
      builder.cuts_ascending
  refine ⟨⟨first, stop - 1⟩, List.mem_map.mpr ⟨(first, stop), neighbours, rfl⟩, firstLe, ?_⟩
  simp only
  omega

/-- An interval that does not begin in ASCII lies outside ASCII, and the other
way round. -/
theorem asciiCount_le_first_iff {interval : Interval} (member : interval ∈ builder.intervals)
    {point : Nat} (firstLe : interval.first ≤ point) (leLast : point ≤ interval.last) :
    asciiCount ≤ interval.first ↔ asciiCount ≤ point := by
  have asciiCut : asciiCount ∈ builder.cuts := by simp [mem_cuts, cutPoints]
  have side := (interval_spec member).2.2 asciiCount asciiCut
  omega

/-- All code points of an interval have the same column. -/
theorem column_eq_of_mem_interval {interval : Interval} (member : interval ∈ builder.intervals)
    {point : Nat} (firstLe : interval.first ≤ point) (leLast : point ≤ interval.last) :
    builder.column (some point) = builder.column (some interval.first) := by
  obtain ⟨_, _, apart⟩ := interval_spec member
  have sameTarget : ∀ rules ∈ builder.states,
      rules.edgeTarget? point = rules.edgeTarget? interval.first := by
    intro rules known
    rw [StateRules.edgeTarget?, StateRules.edgeTarget?]
    congr 1
    apply List.find?_congr
    intro edge edgeMember
    obtain ⟨loCut, hiCut⟩ := edge_cuts known (Array.mem_toList_iff.mp edgeMember)
    have loSide := apart _ loCut
    have hiSide := apart _ hiCut
    rw [Bool.eq_iff_iff]
    simp only [Edge.covers, Bool.and_eq_true, decide_eq_true_eq]
    omega
  apply List.map_congr_left
  rintro ⟨rules, state⟩ entry
  have known : rules ∈ builder.states :=
    Array.mem_toList_iff.mp (List.mem_of_getElem? (List.mk_mem_zipIdx_iff_getElem?.mp entry))
  simp only [targetFrom, StateRules.target?, Option.bind_some, sameTarget rules known]

theorem column_mem_columns (builder : Builder) {point : Nat} (pointLe : point ≤ lastCodePoint) :
    builder.column (some point) ∈ builder.columns := by
  obtain ⟨interval, member, firstLe, leLast⟩ := builder.exists_interval pointLe
  rw [columns, List.mem_eraseDups, column_eq_of_mem_interval member firstLe leLast]
  exact List.mem_cons_of_mem _ (List.mem_map.mpr ⟨interval, member, rfl⟩)

end Builder

end MaximalMunch
