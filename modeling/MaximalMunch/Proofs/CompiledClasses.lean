import MaximalMunch.Proofs.ClassLookup
import MaximalMunch.Proofs.Columns

/-!
# Classes of a compiled description

Gluing changes which ranges there are, but not which code points they hold.  So
looking up the class of a character in the class map of a description answers
the class of the column of that character, whether the character is an ASCII
character, lies in a range, or is covered by nothing.  The classes of the ASCII
characters may as well be written interval by interval, since each interval
knows the class of what it holds.
-/

namespace MaximalMunch

theorem getElem_foldl_setIfInBounds {α : Type} {size : Nat} (value : α) (points : List Nat)
    (entries : Vector α size) {point : Nat} (inside : point < size) :
    (points.foldl (fun entries point => entries.setIfInBounds point value) entries)[point] =
      if point ∈ points then value else entries[point] := by
  induction points generalizing entries with
  | nil => simp
  | cons written points ih =>
      rw [List.foldl_cons, ih, Vector.getElem_setIfInBounds]
      by_cases same : written = point
      · simp [same]
      · simp [same, Ne.symm same]

namespace Builder

/-- Some range of the list holds the code point and has the class. -/
def Classifies (ranges : List ClassRange) (point : UInt32) (cls : UInt16) : Prop :=
  ∃ range ∈ ranges, range.Holds point ∧ range.cls = cls

variable {point : UInt32} {cls : UInt16}

@[simp]
theorem classifies_cons_iff {range : ClassRange} {ranges : List ClassRange} :
    Classifies (range :: ranges) point cls ↔
      range.Holds point ∧ range.cls = cls ∨ Classifies ranges point cls := by
  simp [Classifies]

/-- What two ranges have and passes on to the range they are glued into is kept
by gluing. -/
theorem glueRange_forall (good : ClassRange → Prop)
    (joins : ∀ range next : ClassRange, range.hi.toNat + 1 = next.lo.toNat →
      good range → good next → good ⟨range.lo, next.hi, range.cls⟩)
    {range : ClassRange} {ranges : List ClassRange}
    (each : ∀ other ∈ range :: ranges, good other) :
    ∀ other ∈ glueRange range ranges, good other := by
  cases ranges with
  | nil => exact each
  | cons next ranges =>
      rw [glueRange]
      split
      case isFalse => exact each
      case isTrue touching =>
        refine List.forall_mem_cons.mpr ⟨?_, ?_⟩
        · exact joins range next touching.2 (each range (by simp)) (each next (by simp))
        · intro other member
          exact each other (by simp [member])

theorem foldr_glueRange_forall (good : ClassRange → Prop)
    (joins : ∀ range next : ClassRange, range.hi.toNat + 1 = next.lo.toNat →
      good range → good next → good ⟨range.lo, next.hi, range.cls⟩)
    {ranges : List ClassRange} (each : ∀ range ∈ ranges, good range) :
    ∀ range ∈ ranges.foldr glueRange [], good range := by
  induction ranges with
  | nil => simp
  | cons range ranges ih =>
      obtain ⟨rangeGood, restGood⟩ := List.forall_mem_cons.mp each
      exact glueRange_forall good joins (List.forall_mem_cons.mpr ⟨rangeGood, ih restGood⟩)

theorem ordered_of_touching (range next : ClassRange)
    (touching : range.hi.toNat + 1 = next.lo.toNat) (rangeOrdered : range.lo ≤ range.hi)
    (nextOrdered : next.lo ≤ next.hi) : range.lo ≤ next.hi := by
  rw [UInt32.le_iff_toNat_le] at rangeOrdered nextOrdered ⊢
  omega

theorem classifies_glueRange_iff {range : ClassRange} {ranges : List ClassRange}
    (ordered : ∀ other ∈ range :: ranges, other.lo ≤ other.hi) :
    Classifies (glueRange range ranges) point cls ↔
      Classifies (range :: ranges) point cls := by
  cases ranges with
  | nil => rfl
  | cons next ranges =>
      rw [glueRange]
      split
      case isFalse => rfl
      case isTrue touching =>
        obtain ⟨sameClass, touching⟩ := touching
        have rangeOrdered := ordered range (by simp)
        have nextOrdered := ordered next (by simp)
        have holdsIff : ClassRange.Holds ⟨range.lo, next.hi, range.cls⟩ point ↔
            range.Holds point ∨ next.Holds point := by
          simp only [ClassRange.Holds, UInt32.le_iff_toNat_le] at rangeOrdered nextOrdered ⊢
          omega
        simp only [classifies_cons_iff]
        rw [holdsIff, sameClass, or_and_right, or_assoc]

/-- Gluing does not change which code points are held. -/
theorem classifies_foldr_glueRange_iff {ranges : List ClassRange}
    (ordered : ∀ range ∈ ranges, range.lo ≤ range.hi) :
    Classifies (ranges.foldr glueRange []) point cls ↔ Classifies ranges point cls := by
  induction ranges with
  | nil => rfl
  | cons range ranges ih =>
      obtain ⟨rangeOrdered, restOrdered⟩ := List.forall_mem_cons.mp ordered
      have gluedOrdered := foldr_glueRange_forall _ ordered_of_touching restOrdered
      rw [List.foldr_cons, classifies_glueRange_iff
        (List.forall_mem_cons.mpr ⟨rangeOrdered, gluedOrdered⟩),
        classifies_cons_iff, classifies_cons_iff, ih restOrdered]

variable {builder : Builder} {columns : List (List StateId)}

theorem toNat_ofNat_of_le_lastCodePoint {point : Nat} (pointLe : point ≤ lastCodePoint) :
    (UInt32.ofNat point).toNat = point := by
  simp only [lastCodePoint] at pointLe
  exact UInt32.toNat_ofNat_of_lt' (by simp only [UInt32.size]; omega)

theorem toNat_interval_ends {interval : Interval} (member : interval ∈ builder.intervals) :
    (UInt32.ofNat interval.first).toNat = interval.first ∧
      (UInt32.ofNat interval.last).toNat = interval.last := by
  obtain ⟨ordered, lastLe, _⟩ := interval_spec member
  exact ⟨toNat_ofNat_of_le_lastCodePoint (ordered.trans lastLe),
    toNat_ofNat_of_le_lastCodePoint lastLe⟩

/-- The ranges of a description hold the code points outside ASCII whose class
is not the class of all others. -/
theorem classifies_classRanges_iff (pointLe : point.toNat ≤ lastCodePoint) :
    Classifies (builder.classRanges columns) point cls ↔
      asciiCount ≤ point.toNat ∧ cls ≠ otherClass ∧
        cls = classOfColumn columns (builder.column (some point.toNat)) := by
  rw [classRanges, classifies_foldr_glueRange_iff]
  · constructor
    · rintro ⟨range, rangeMember, holds, rfl⟩
      obtain ⟨mapped, classified⟩ := List.mem_filter.mp rangeMember
      obtain ⟨interval, filtered, rfl⟩ := List.mem_map.mp mapped
      obtain ⟨member, outside⟩ := List.mem_filter.mp filtered
      obtain ⟨firstEq, lastEq⟩ := toNat_interval_ends member
      simp only [ClassRange.Holds, UInt32.le_iff_toNat_le, firstEq, lastEq] at holds
      rw [column_eq_of_mem_interval member holds.1 holds.2]
      exact ⟨(asciiCount_le_first_iff member holds.1 holds.2).mp (by simpa using outside),
        by simpa using classified, rfl⟩
    · rintro ⟨outside, classified, rfl⟩
      obtain ⟨interval, member, firstLe, leLast⟩ := builder.exists_interval pointLe
      obtain ⟨firstEq, lastEq⟩ := toNat_interval_ends member
      rw [column_eq_of_mem_interval member firstLe leLast] at classified ⊢
      refine ⟨_, List.mem_filter.mpr ⟨List.mem_map.mpr ⟨interval, List.mem_filter.mpr
        ⟨member, ?_⟩, rfl⟩, by simpa using classified⟩, ?_, rfl⟩
      · simpa using (asciiCount_le_first_iff member firstLe leLast).mpr outside
      · simp only [ClassRange.Holds, UInt32.le_iff_toNat_le, firstEq, lastEq]
        exact ⟨firstLe, leLast⟩
  · intro range rangeMember
    obtain ⟨mapped, _⟩ := List.mem_filter.mp rangeMember
    obtain ⟨interval, filtered, rfl⟩ := List.mem_map.mp mapped
    obtain ⟨member, _⟩ := List.mem_filter.mp filtered
    obtain ⟨firstEq, lastEq⟩ := toNat_interval_ends member
    rw [UInt32.le_iff_toNat_le, firstEq, lastEq]
    exact (interval_spec member).1

/-- The class of a character is the class of its column. -/
theorem classOf_classMap {classCount : UInt32}
    (valid : (builder.classMap columns).Valid classCount) (c : Char) :
    (builder.classMap columns).classOf c =
      classOfColumn columns (builder.column (some c.toNat)) := by
  rw [ClassMap.classOf]
  split
  case isTrue ascii => simp [classMap]
  case isFalse outside =>
    have classified : ∀ cls, Classifies (builder.classRanges columns) c.val cls ↔
        asciiCount ≤ c.toNat ∧ cls ≠ otherClass ∧
          cls = classOfColumn columns (builder.column (some c.toNat)) :=
      fun cls => classifies_classRanges_iff (toNat_le_lastCodePoint c)
    cases found : (builder.classMap columns).rangeAt? c.val with
    | none =>
        have nothing := (ClassMap.rangeAt?_eq_none_iff valid).mp found
        refine Eq.symm (Classical.byContradiction fun other => ?_)
        obtain ⟨range, member, holds, _⟩ :=
          (classified _).mpr ⟨Nat.le_of_not_lt outside, other, rfl⟩
        exact nothing range (by simpa [classMap] using member) holds
    | some range =>
        obtain ⟨member, holds⟩ := (ClassMap.rangeAt?_eq_some_iff valid).mp found
        exact ((classified range.cls).mp
          ⟨range, by simpa [classMap] using member, holds, rfl⟩).2.2

/-- Write the class of an interval to those of its code points that are ASCII. -/
def fillAscii (builder : Builder) (columns : List (List StateId))
    (ascii : Vector UInt16 asciiCount) (interval : Interval) : Vector UInt16 asciiCount :=
  if interval.first < asciiCount then
    let last := min interval.last (asciiCount - 1)
    (List.range' interval.first (last + 1 - interval.first)).foldl
      (fun ascii point => ascii.setIfInBounds point
        (classOfColumn columns (builder.column (some interval.first)))) ascii
  else
    ascii

theorem getElem_fillAscii (ascii : Vector UInt16 asciiCount) (interval : Interval) {point : Nat}
    (inside : point < asciiCount) :
    (builder.fillAscii columns ascii interval)[point] =
      if interval.first ≤ point ∧ point ≤ interval.last then
        classOfColumn columns (builder.column (some interval.first))
      else ascii[point] := by
  rw [fillAscii]
  split
  case isTrue =>
    have written : point ∈ List.range' interval.first
          (min interval.last (asciiCount - 1) + 1 - interval.first) ↔
        interval.first ≤ point ∧ point ≤ interval.last := by
      rw [List.mem_range'_1]
      omega
    simp only [getElem_foldl_setIfInBounds, written]
  case isFalse outside =>
    have missed : ¬ (interval.first ≤ point ∧ point ≤ interval.last) := by omega
    rw [if_neg missed]

/-- An entry that was right stays so, and becomes right when an interval holds its
point. -/
theorem getElem_foldl_fillAscii {intervals : List Interval} {point : Nat}
    (inside : point < asciiCount) {cls : UInt16}
    (agree : ∀ interval ∈ intervals, interval.first ≤ point → point ≤ interval.last →
      classOfColumn columns (builder.column (some interval.first)) = cls)
    (ascii : Vector UInt16 asciiCount)
    (right : ascii[point] = cls ∨
      ∃ interval ∈ intervals, interval.first ≤ point ∧ point ≤ interval.last) :
    (intervals.foldl (builder.fillAscii columns) ascii)[point] = cls := by
  induction intervals generalizing ascii with
  | nil => simpa using right
  | cons interval intervals ih =>
      obtain ⟨agreeFirst, agreeRest⟩ := List.forall_mem_cons.mp agree
      rw [List.foldl_cons]
      apply ih agreeRest
      rw [getElem_fillAscii]
      by_cases holds : interval.first ≤ point ∧ point ≤ interval.last
      · rw [if_pos holds]
        exact .inl (agreeFirst holds.1 holds.2)
      · rw [if_neg holds]
        simpa [holds] using right

/-- Each interval writes its class to its ASCII characters, one interval after the
other; this fills the vector with the classes of all of them. -/
theorem ascii_classMap (builder : Builder) (columns : List (List StateId)) :
    (builder.classMap columns).ascii =
      builder.intervals.foldl (builder.fillAscii columns) ClassMap.blank.ascii := by
  apply Vector.ext
  intro point inside
  have pointLe : point ≤ lastCodePoint := by
    simp only [asciiCount, lastCodePoint] at inside ⊢
    omega
  refine Eq.symm (getElem_foldl_fillAscii inside ?_ _ (.inr (builder.exists_interval pointLe)))
  intro interval member firstLe leLast
  rw [← column_eq_of_mem_interval member firstLe leLast]
  simp [classMap]

end Builder

end MaximalMunch
