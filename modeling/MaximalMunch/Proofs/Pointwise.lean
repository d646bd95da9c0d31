import MaximalMunch.Proofs.CompiledClasses
import Mathlib.Data.List.Basic

/-!
# Compiling one code point at a time

The classes of a description are found on the intervals between its cuts.  They
come out as if every code point were an interval of its own: code points of one
interval bring no new column after the first of them, and their ranges are glued
together.  So neither the numbers of the classes nor their ranges show where the
code points were cut.
-/

namespace MaximalMunch

def Interval.points (interval : Interval) : List Nat :=
  List.range' interval.first (interval.last + 1 - interval.first)

theorem Interval.mem_points_iff {interval : Interval} (nonempty : interval.first ≤ interval.last)
    {point : Nat} : point ∈ interval.points ↔ interval.first ≤ point ∧ point ≤ interval.last := by
  rw [points, List.mem_range'_1]
  omega

theorem Interval.points_eq_cons {interval : Interval} (nonempty : interval.first ≤ interval.last) :
    interval.points = interval.first ::
      List.range' (interval.first + 1) (interval.last - interval.first) := by
  have lengthEq : interval.last + 1 - interval.first = interval.last - interval.first + 1 := by
    omega
  rw [points, lengthEq, List.range'_succ]

namespace Builder

/-- The numbers between neighbouring cuts are all numbers from the lowest cut up
to the highest one. -/
theorem flatMap_zip_tail {cuts : List Nat} {lowest highest : Nat}
    (ascending : cuts.Pairwise (· < ·)) (lowestMember : lowest ∈ cuts)
    (lowestLe : ∀ cut ∈ cuts, lowest ≤ cut) (highestMember : highest ∈ cuts)
    (leHighest : ∀ cut ∈ cuts, cut ≤ highest) :
    (cuts.zip cuts.tail).flatMap (fun (first, stop) => List.range' first (stop - first)) =
      List.range' lowest (highest - lowest) := by
  induction cuts generalizing lowest with
  | nil => cases lowestMember
  | cons head cuts ih =>
      obtain ⟨headFirst, ascendingRest⟩ := List.pairwise_cons.mp ascending
      have headEq : lowest = head := by
        have lowestLeHead := lowestLe head List.mem_cons_self
        rcases List.mem_cons.mp lowestMember with same | behind
        · exact same
        · have := headFirst lowest behind
          omega
      subst headEq
      cases cuts with
      | nil =>
          have highestEq := List.mem_singleton.mp highestMember
          simp [highestEq]
      | cons second cuts =>
          have lowestLt := headFirst second List.mem_cons_self
          have secondLe := leHighest second (List.mem_cons_of_mem lowest List.mem_cons_self)
          have highestBehind : highest ∈ second :: cuts := by
            rcases List.mem_cons.mp highestMember with same | behind
            · omega
            · exact behind
          have rest := ih ascendingRest List.mem_cons_self (by
            intro cut member
            rcases List.mem_cons.mp member with rfl | behind
            · exact Nat.le_refl cut
            · exact Nat.le_of_lt ((List.pairwise_cons.mp ascendingRest).1 cut behind))
            highestBehind (fun cut member => leHighest cut (List.mem_cons_of_mem lowest member))
          rw [List.tail_cons] at rest ⊢
          rw [List.zip_cons_cons, List.flatMap_cons, rest]
          have joined := @List.range'_append_1 lowest (second - lowest) (highest - second)
          rw [Nat.add_sub_cancel' (Nat.le_of_lt lowestLt)] at joined
          rw [joined]
          congr 1
          omega

variable {builder : Builder}

/-- The intervals hold every code point once, in order. -/
theorem flatMap_points_intervals (builder : Builder) :
    builder.intervals.flatMap Interval.points = List.range (lastCodePoint + 1) := by
  have zeroCut : 0 ∈ builder.cuts := by simp [mem_cuts, cutPoints]
  have lastCut : lastCodePoint + 1 ∈ builder.cuts := by simp [mem_cuts, cutPoints]
  have tiles := flatMap_zip_tail builder.cuts_ascending zeroCut (fun cut _ => Nat.zero_le cut)
    lastCut (fun cut member => cut_le member)
  rw [List.range_eq_range', ← Nat.sub_zero (lastCodePoint + 1), ← tiles, intervals,
    List.flatMap_map]
  apply List.flatMap_congr
  rintro ⟨first, stop⟩ neighbours
  obtain ⟨ordered, _⟩ := neighbours_of_mem_zip_tail builder.cuts_ascending neighbours
  have lastEq : stop - 1 + 1 = stop := by omega
  simp only [Interval.points, lastEq]

/-- What is listed already may be left out further behind. -/
theorem eraseDups_append_of_subset {α : Type} [BEq α] [LawfulBEq α] {listed again rest : List α}
    (known : ∀ item ∈ again, item ∈ listed) :
    (listed ++ (again ++ rest)).eraseDups = (listed ++ rest).eraseDups := by
  have nothingNew : again.removeAll listed = [] := by
    rw [List.removeAll, List.filter_eq_nil_iff]
    intro item member
    simpa using known item member
  have removed : (again ++ rest).removeAll listed = rest.removeAll listed := by
    rw [List.removeAll, List.filter_append]
    exact (congrArg (· ++ rest.removeAll listed) nothingNew).trans (List.nil_append _)
  rw [List.eraseDups_append, List.eraseDups_append, removed]

/-- A value that is the same on all of an interval need only be taken at its
first point to find the distinct values in order. -/
theorem eraseDups_map_points {α : Type} [BEq α] [LawfulBEq α] {value : Nat → α}
    {intervals : List Interval}
    (constant : ∀ interval ∈ intervals, interval.first ≤ interval.last ∧
      ∀ point ∈ interval.points, value point = value interval.first)
    (listed : List α) :
    (listed ++ (intervals.flatMap Interval.points).map value).eraseDups =
      (listed ++ intervals.map fun interval => value interval.first).eraseDups := by
  induction intervals generalizing listed with
  | nil => rfl
  | cons interval intervals ih =>
      obtain ⟨⟨nonempty, same⟩, constantRest⟩ := List.forall_mem_cons.mp constant
      have pointsEq := interval.points_eq_cons nonempty
      rw [pointsEq] at same
      have known : ∀ item ∈ (List.range' (interval.first + 1)
          (interval.last - interval.first)).map value, item ∈ listed ++ [value interval.first] := by
        intro item member
        obtain ⟨point, pointMember, rfl⟩ := List.mem_map.mp member
        rw [same point (List.mem_cons_of_mem _ pointMember)]
        exact List.mem_append_right listed List.mem_cons_self
      rw [List.flatMap_cons, List.map_append, pointsEq, List.map_cons, List.map_cons,
        List.cons_append, List.append_cons listed, eraseDups_append_of_subset known,
        ih constantRest, ← List.append_cons]

/-- The classes are the distinct columns of all code points, in the order of
their first occurrence. -/
theorem columns_eq_eraseDups_points (builder : Builder) :
    builder.columns = (builder.column none :: (List.range (lastCodePoint + 1)).map
      fun point => builder.column (some point)).eraseDups := by
  have constant : ∀ interval ∈ builder.intervals, interval.first ≤ interval.last ∧
      ∀ point ∈ interval.points,
        builder.column (some point) = builder.column (some interval.first) := by
    intro interval member
    have nonempty := (interval_spec member).1
    refine ⟨nonempty, ?_⟩
    intro point pointMember
    obtain ⟨firstLe, leLast⟩ := (Interval.mem_points_iff nonempty).mp pointMember
    exact column_eq_of_mem_interval member firstLe leLast
  rw [← builder.flatMap_points_intervals]
  exact (eraseDups_map_points constant [builder.column none]).symm

/-- Two touching ranges of one class may be glued before the rest. -/
theorem glueRange_glueRange {range next : ClassRange} (sameClass : range.cls = next.cls)
    (touching : range.hi.toNat + 1 = next.lo.toNat) (ranges : List ClassRange) :
    glueRange range (glueRange next ranges) = glueRange ⟨range.lo, next.hi, range.cls⟩ ranges := by
  cases ranges with
  | nil => simp [glueRange, sameClass, touching]
  | cons behind ranges =>
      by_cases glues : next.cls = behind.cls ∧ next.hi.toNat + 1 = behind.lo.toNat
      · simp [glueRange, glues, sameClass, touching]
      · simp [glueRange, glues, sameClass, touching]

/-- Put the range of an interval in front of the ranges behind it, unless the
interval lies in ASCII or in the class of all others. -/
def addRange (builder : Builder) (columns : List (List StateId)) (interval : Interval)
    (ranges : List ClassRange) : List ClassRange :=
  let cls := classOfColumn columns (builder.column (some interval.first))
  if asciiCount ≤ interval.first ∧ cls ≠ otherClass then
    glueRange ⟨UInt32.ofNat interval.first, UInt32.ofNat interval.last, cls⟩ ranges
  else
    ranges

theorem classRanges_eq_foldr_intervals (builder : Builder) (columns : List (List StateId)) :
    builder.classRanges columns = builder.intervals.foldr (builder.addRange columns) [] := by
  rw [classRanges, List.foldr_filter, List.foldr_map, List.foldr_filter]
  apply List.foldr_ext
  intro interval _ ranges
  by_cases outside : asciiCount ≤ interval.first
  · simp [addRange, outside]
  · simp [addRange, outside]

/-- Neighbouring points with the same column, none of which is the first one
outside ASCII, may be added one by one. -/
theorem foldr_addRange_range' {columns : List (List StateId)} {first count : Nat}
    (bounded : first + count ≤ lastCodePoint)
    (same : ∀ point, first ≤ point → point ≤ first + count →
      builder.column (some point) = builder.column (some first) ∧
        (asciiCount ≤ point ↔ asciiCount ≤ first))
    (ranges : List ClassRange) :
    (List.range' first (count + 1)).foldr
        (fun point => builder.addRange columns ⟨point, point⟩) ranges =
      builder.addRange columns ⟨first, first + count⟩ ranges := by
  induction count generalizing first with
  | zero => rfl
  | succ count ih =>
      obtain ⟨sameColumn, sameSide⟩ := same (first + 1) (by omega) (by omega)
      have rest := @ih (first + 1) (by omega) (by
        intro point firstLe leLast
        obtain ⟨pointColumn, pointSide⟩ := same point (by omega) (by omega)
        exact ⟨pointColumn.trans sameColumn.symm, pointSide.trans sameSide.symm⟩)
      have lastEq : first + (count + 1) = first + 1 + count := by omega
      -- The fold runs from the end, so the first point is glued to all the others.
      rw [List.range'_succ, List.foldr_cons, rest, lastEq]
      simp only [addRange, sameColumn, sameSide]
      split
      · apply glueRange_glueRange
        · rfl
        · rw [toNat_ofNat_of_le_lastCodePoint (by omega),
            toNat_ofNat_of_le_lastCodePoint (by omega)]
      · rfl

theorem foldr_addRange_points {columns : List (List StateId)} {interval : Interval}
    (member : interval ∈ builder.intervals) (ranges : List ClassRange) :
    interval.points.foldr (fun point => builder.addRange columns ⟨point, point⟩) ranges =
      builder.addRange columns interval ranges := by
  obtain ⟨nonempty, lastLe, _⟩ := interval_spec member
  obtain ⟨count, lastEq⟩ := Nat.exists_eq_add_of_le nonempty
  have lengthEq : interval.last + 1 - interval.first = count + 1 := by omega
  rw [Interval.points, lengthEq, foldr_addRange_range' (by omega), ← lastEq]
  intro point firstLe leLast
  rw [← lastEq] at leLast
  exact ⟨column_eq_of_mem_interval member firstLe leLast,
    (asciiCount_le_first_iff member firstLe leLast).symm⟩

/-- The ranges are those of all code points, one glued to the other. -/
theorem classRanges_eq_foldr_points (builder : Builder) (columns : List (List StateId)) :
    builder.classRanges columns = (List.range (lastCodePoint + 1)).foldr
      (fun point => builder.addRange columns ⟨point, point⟩) [] := by
  rw [classRanges_eq_foldr_intervals, ← builder.flatMap_points_intervals, List.foldr_flatMap]
  apply List.foldr_ext
  intro interval member ranges
  exact (foldr_addRange_points member ranges).symm

end Builder

end MaximalMunch
