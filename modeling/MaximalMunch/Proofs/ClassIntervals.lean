import MaximalMunch.Proofs.ClassLookup
import Mathlib.Data.List.Basic

/-!
# Classes and their intervals

A class map is read in two directions: from a character to its class, and from a
class to the intervals of its code points.  The first reading agrees with a look
at each range in turn, and the intervals hold exactly the code points that the map
lists under the class.  Gluing neighbours loses nothing and leaves gaps between the
intervals, so there are no fewer of them.  The two readings undo each other, except
that the intervals of the class of all others do not include what the map never
mentions.
-/

namespace MaximalMunch

namespace Interval

def Holds (interval : Interval) (point : Nat) : Prop :=
  interval.first ≤ point ∧ point ≤ interval.last

/-- The intervals are not empty, and ascend with at least one code point missing
between any two of them. -/
structure Separate (intervals : List Interval) : Prop where
  nonempty : ∀ interval ∈ intervals, interval.first ≤ interval.last
  gapped : intervals.Pairwise fun before after => before.last + 1 < after.first

variable {interval : Interval} {intervals : List Interval} {point : Nat}

theorem exists_holds_cons_iff :
    (∃ other ∈ interval :: intervals, other.Holds point) ↔
      interval.Holds point ∨ ∃ other ∈ intervals, other.Holds point := by
  simp

theorem holds_of_touching {next : Interval} (touching : interval.last + 1 = next.first)
    (nonempty : interval.first ≤ interval.last) (nextNonempty : next.first ≤ next.last) :
    Holds ⟨interval.first, next.last⟩ point ↔ interval.Holds point ∨ next.Holds point := by
  simp only [Holds]
  omega

theorem exists_holds_glue_iff (nonempty : interval.first ≤ interval.last)
    (othersNonempty : ∀ other ∈ intervals, other.first ≤ other.last) :
    (∃ other ∈ glue interval intervals, other.Holds point) ↔
      interval.Holds point ∨ ∃ other ∈ intervals, other.Holds point := by
  cases intervals with
  | nil => exact exists_holds_cons_iff
  | cons next intervals =>
      rw [glue]
      split
      case isFalse => exact exists_holds_cons_iff
      case isTrue touching =>
        have nextNonempty := othersNonempty next List.mem_cons_self
        rw [exists_holds_cons_iff, exists_holds_cons_iff,
          holds_of_touching touching nonempty nextNonempty, or_assoc]

/-- An interval in front of separate ones may touch the first of them; glued to it, it
is separate from the others. -/
theorem Separate.glue (separate : Separate intervals) (nonempty : interval.first ≤ interval.last)
    (before : ∀ other ∈ intervals, interval.last < other.first) :
    Separate (glue interval intervals) := by
  cases intervals with
  | nil => exact ⟨by simpa [Interval.glue] using nonempty, List.pairwise_singleton _ _⟩
  | cons next intervals =>
      obtain ⟨nextNonempty, restNonempty⟩ := List.forall_mem_cons.mp separate.nonempty
      obtain ⟨nextGapped, restGapped⟩ := List.pairwise_cons.mp separate.gapped
      rw [Interval.glue]
      split
      case isTrue touching =>
        refine ⟨List.forall_mem_cons.mpr ⟨?_, restNonempty⟩,
          List.pairwise_cons.mpr ⟨nextGapped, restGapped⟩⟩
        simp only
        omega
      case isFalse apart =>
        have gap : interval.last + 1 < next.first := by
          have := before next List.mem_cons_self
          omega
        refine ⟨List.forall_mem_cons.mpr ⟨nonempty, separate.nonempty⟩,
          List.pairwise_cons.mpr ⟨List.forall_mem_cons.mpr ⟨gap, ?_⟩, separate.gapped⟩⟩
        intro other member
        have := nextGapped other member
        omega

/-- Gluing moves the start of no interval forward. -/
theorem lt_first_of_mem_glue {bound : Nat} (before : bound < interval.first)
    (others : ∀ other ∈ intervals, bound < other.first) :
    ∀ other ∈ glue interval intervals, bound < other.first := by
  cases intervals with
  | nil => simpa [glue] using before
  | cons next intervals =>
      rw [glue]
      split
      case isFalse => exact List.forall_mem_cons.mpr ⟨before, others⟩
      case isTrue => exact List.forall_mem_cons.mpr ⟨before, (List.forall_mem_cons.mp others).2⟩

theorem lt_first_of_mem_coalesce {bound : Nat}
    (before : ∀ other ∈ intervals, bound < other.first) :
    ∀ other ∈ coalesce intervals, bound < other.first := by
  induction intervals with
  | nil => simp [coalesce]
  | cons interval intervals ih =>
      obtain ⟨beforeFirst, beforeRest⟩ := List.forall_mem_cons.mp before
      exact lt_first_of_mem_glue beforeFirst (ih beforeRest)

/-- Gluing ascending intervals leaves gaps between them. -/
theorem separate_coalesce (nonempty : ∀ interval ∈ intervals, interval.first ≤ interval.last)
    (ascending : intervals.Pairwise fun before after => before.last < after.first) :
    Separate (coalesce intervals) := by
  induction intervals with
  | nil => exact ⟨by simp [coalesce], .nil⟩
  | cons interval intervals ih =>
      obtain ⟨firstNonempty, restNonempty⟩ := List.forall_mem_cons.mp nonempty
      obtain ⟨firstBefore, restAscending⟩ := List.pairwise_cons.mp ascending
      exact (ih restNonempty restAscending).glue firstNonempty
        (lt_first_of_mem_coalesce firstBefore)

/-- Gluing ascending intervals does not change which code points they hold. -/
theorem exists_holds_coalesce_iff
    (nonempty : ∀ interval ∈ intervals, interval.first ≤ interval.last)
    (ascending : intervals.Pairwise fun before after => before.last < after.first) :
    (∃ other ∈ coalesce intervals, other.Holds point) ↔
      ∃ other ∈ intervals, other.Holds point := by
  induction intervals with
  | nil => rfl
  | cons interval intervals ih =>
      obtain ⟨firstNonempty, restNonempty⟩ := List.forall_mem_cons.mp nonempty
      obtain ⟨_, restAscending⟩ := List.pairwise_cons.mp ascending
      have restSeparate := separate_coalesce restNonempty restAscending
      rw [exists_holds_cons_iff, ← ih restNonempty restAscending]
      exact exists_holds_glue_iff firstNonempty restSeparate.nonempty

end Interval

namespace ClassMap

variable {classes : ClassMap} {classCount : UInt32} {point : UInt32} {cls : UInt16}

/-- Of ascending ranges at most one holds a code point. -/
theorem filter_holds_cases (point : UInt32) {ranges : List ClassRange}
    (ascending : ranges.Pairwise fun before after => before.hi < after.lo) :
    ranges.filter (fun range => range.Holds point) = [] ∨
      ∃ range, ranges.filter (fun range => range.Holds point) = [range] := by
  cases filtered : ranges.filter (fun range => range.Holds point) with
  | nil => exact .inl rfl
  | cons range others =>
      cases others with
      | nil => exact .inr ⟨range, rfl⟩
      | cons other others =>
          have members : ∀ found ∈ range :: other :: others, found.Holds point := by
            intro found member
            rw [← filtered] at member
            simpa using (List.mem_filter.mp member).2
          have order := ascending.filter fun range => range.Holds point
          rw [filtered] at order
          have apart := (List.pairwise_cons.mp order).1 other List.mem_cons_self
          have rangeHolds := members range List.mem_cons_self
          have otherHolds := members other (List.mem_cons_of_mem range List.mem_cons_self)
          exact absurd (UInt32.lt_of_le_of_lt rangeHolds.2 (UInt32.lt_of_lt_of_le apart otherHolds.1))
            (UInt32.lt_irrefl point)

theorem ascii_of_lt (classes : ClassMap) {c : Char} (ascii : c.toNat < asciiCount) :
    classes.ascii[c.toNat]? = some (classes.classOf c) := by
  rw [classOf, dif_pos ascii, Vector.getElem?_eq_getElem ascii]

/-- Binary search answers what a look at each range in turn would. -/
theorem Valid.classOf_of_le (valid : classes.Valid classCount) {c : Char}
    (outside : asciiCount ≤ c.toNat) :
    (∃ range, classes.ranges.toList.filter (fun range => range.Holds c.val) = [range] ∧
      classes.classOf c = range.cls) ∨
    classes.ranges.toList.filter (fun range => range.Holds c.val) = [] ∧
      classes.classOf c = otherClass := by
  rw [classOf, dif_neg (Nat.not_lt.mpr outside)]
  rcases filter_holds_cases c.val valid.ascending with nothing | ⟨range, only⟩
  · right
    have missing : classes.rangeAt? c.val = none := by
      rw [rangeAt?_eq_none_iff valid]
      intro range member
      simpa using List.filter_eq_nil_iff.mp nothing range (Array.mem_toList_iff.mpr member)
    exact ⟨nothing, by rw [missing]; rfl⟩
  · left
    have member : range ∈ classes.ranges.toList.filter (fun range => range.Holds c.val) := by
      simp [only]
    obtain ⟨listed, holds⟩ := List.mem_filter.mp member
    have found : classes.rangeAt? c.val = some range :=
      (rangeAt?_eq_some_iff valid).mpr ⟨Array.mem_toList_iff.mp listed, by simpa using holds⟩
    exact ⟨range, only, by rw [found]; rfl⟩

/-- The map mentions the code point under the class. -/
def Lists (classes : ClassMap) (cls : UInt16) (point : Nat) : Prop :=
  classes.ascii[point]? = some cls ∨
    ∃ range ∈ classes.ranges, range.cls = cls ∧ range.lo.toNat ≤ point ∧ point ≤ range.hi.toNat

theorem mem_asciiPieces_iff {interval : Interval} :
    interval ∈ classes.asciiPieces cls ↔
      classes.ascii[interval.first]? = some cls ∧ interval.last = interval.first := by
  obtain ⟨first, last⟩ := interval
  simp only [asciiPieces, List.mem_map, List.mem_filter, beq_iff_eq, Prod.exists,
    List.mk_mem_zipIdx_iff_getElem?, Interval.mk.injEq, Vector.getElem?_toList]
  constructor
  · rintro ⟨_, index, ⟨found, rfl⟩, rfl, rfl⟩
    exact ⟨found, rfl⟩
  · rintro ⟨found, rfl⟩
    exact ⟨cls, last, ⟨found, rfl⟩, rfl, rfl⟩

theorem mem_rangePieces_iff {interval : Interval} :
    interval ∈ classes.rangePieces cls ↔ ∃ range ∈ classes.ranges, range.cls = cls ∧
      (⟨range.lo.toNat, range.hi.toNat⟩ : Interval) = interval := by
  simp only [rangePieces, List.mem_map, List.mem_filter, beq_iff_eq, Array.mem_toList_iff,
    and_assoc]

/-- Before they are glued, the intervals hold what the map mentions under the class. -/
theorem exists_holds_pieces_iff {point : Nat} :
    (∃ interval ∈ classes.asciiPieces cls ++ classes.rangePieces cls, interval.Holds point) ↔
      classes.Lists cls point := by
  simp only [List.mem_append, mem_asciiPieces_iff, mem_rangePieces_iff, or_and_right, exists_or]
  refine or_congr ?_ ?_
  · constructor
    · rintro ⟨interval, ⟨found, lastEq⟩, firstLe, leLast⟩
      rw [lastEq] at leLast
      rwa [Nat.le_antisymm firstLe leLast] at found
    · intro found
      exact ⟨⟨point, point⟩, ⟨found, rfl⟩, Nat.le_refl point, Nat.le_refl point⟩
  · constructor
    · rintro ⟨_, ⟨range, member, sameClass, rfl⟩, holds⟩
      exact ⟨range, member, sameClass, holds⟩
    · rintro ⟨range, member, sameClass, holds⟩
      exact ⟨_, ⟨range, member, sameClass, rfl⟩, holds⟩

theorem Valid.pieces_nonempty (valid : classes.Valid classCount) :
    ∀ interval ∈ classes.asciiPieces cls ++ classes.rangePieces cls,
      interval.first ≤ interval.last := by
  intro interval member
  rcases List.mem_append.mp member with single | whole
  · exact Nat.le_of_eq (mem_asciiPieces_iff.mp single).2.symm
  · obtain ⟨range, listed, _, rfl⟩ := mem_rangePieces_iff.mp whole
    exact UInt32.le_iff_toNat_le.mp (valid.lo_le_hi range listed)

theorem Valid.pieces_ascending (valid : classes.Valid classCount) :
    (classes.asciiPieces cls ++ classes.rangePieces cls).Pairwise
      fun before after => before.last < after.first := by
  refine List.pairwise_append.mpr ⟨?_, ?_, ?_⟩
  · have indices : (classes.ascii.toList.zipIdx.map Prod.snd).Pairwise (· < ·) := by
      rw [List.zipIdx_map_snd]
      exact List.pairwise_lt_range'
    exact List.pairwise_map.mpr ((List.pairwise_map.mp indices).filter _)
  · refine List.pairwise_map.mpr ((valid.ascending.imp ?_).filter _)
    intro before after ordered
    exact UInt32.lt_iff_toNat_lt.mp ordered
  · intro before beforeMember after afterMember
    obtain ⟨found, lastEq⟩ := mem_asciiPieces_iff.mp beforeMember
    obtain ⟨range, listed, _, rfl⟩ := mem_rangePieces_iff.mp afterMember
    have inside : before.first < asciiCount := (Vector.getElem?_eq_some_iff.mp found).1
    rw [lastEq]
    exact Nat.lt_of_lt_of_le inside (valid.ascii_le_lo range listed)

theorem Valid.separate_intervalsOf (valid : classes.Valid classCount) (cls : UInt16) :
    Interval.Separate (classes.intervalsOf cls) :=
  Interval.separate_coalesce valid.pieces_nonempty valid.pieces_ascending

theorem Valid.exists_holds_intervalsOf_iff (valid : classes.Valid classCount) {point : Nat} :
    (∃ interval ∈ classes.intervalsOf cls, interval.Holds point) ↔ classes.Lists cls point := by
  rw [intervalsOf, Interval.exists_holds_coalesce_iff valid.pieces_nonempty
    valid.pieces_ascending, exists_holds_pieces_iff]

/-- A character has a class when the map mentions it under the class, or when the map
does not mention it and the class is that of all others. -/
theorem Valid.classOf_eq_iff (valid : classes.Valid classCount) {c : Char} :
    classes.classOf c = cls ↔ classes.Lists cls c.toNat ∨
      cls = otherClass ∧ asciiCount ≤ c.toNat ∧
        ∀ range ∈ classes.ranges, ¬ range.Holds c.val := by
  have holdsIff : ∀ range : ClassRange, range.Holds c.val ↔
      range.lo.toNat ≤ c.toNat ∧ c.toNat ≤ range.hi.toNat := by
    intro range
    rw [ClassRange.Holds, UInt32.le_iff_toNat_le, UInt32.le_iff_toNat_le]
    rfl
  by_cases ascii : c.toNat < asciiCount
  · have notInRange : ¬ ∃ range ∈ classes.ranges, range.cls = cls ∧ range.Holds c.val := by
      rintro ⟨range, member, _, holds⟩
      have := valid.ascii_le_lo range member
      have := (holdsIff range).mp holds
      omega
    simp [Lists, ← holdsIff, classes.ascii_of_lt ascii, notInRange, Nat.not_le.mpr ascii]
  · have outside := Nat.le_of_not_lt ascii
    have noEntry : classes.ascii[c.toNat]? = none := Vector.getElem?_eq_none outside
    simp only [Lists, ← holdsIff, noEntry, reduceCtorEq, false_or]
    rw [classOf, dif_neg ascii]
    cases found : classes.rangeAt? c.val with
    | none =>
        have nothing := (rangeAt?_eq_none_iff valid).mp found
        constructor
        · rintro rfl
          exact .inr ⟨rfl, outside, nothing⟩
        · rintro (⟨range, member, _, holds⟩ | ⟨rfl, _⟩)
          · exact absurd holds (nothing range member)
          · rfl
    | some range =>
        obtain ⟨member, holds⟩ := (rangeAt?_eq_some_iff valid).mp found
        constructor
        · rintro rfl
          exact .inl ⟨range, member, rfl, holds⟩
        · rintro (⟨other, otherMember, rfl, otherHolds⟩ | ⟨_, _, nothing⟩)
          · have same := (rangeAt?_eq_some_iff valid).mpr ⟨otherMember, otherHolds⟩
            rw [found] at same
            rw [Option.some.inj same]
            rfl
          · exact absurd holds (nothing range member)

end ClassMap

namespace Table

/-- The class of a character is its entry in ASCII, that of the one range that holds
it, or that of all others; the intervals of a class are separate and hold just the
code points that the class map mentions under it; and so each is found from the
other. -/
theorem classOf_intervalsOf (table : Table) :
    (∀ c : Char,
      (c.toNat < asciiCount → table.parts.classes.ascii[c.toNat]? = some (table.classOf c)) ∧
      (asciiCount ≤ c.toNat →
        (∃ range, table.parts.classes.ranges.toList.filter (fun range => range.Holds c.val) =
            [range] ∧ table.classOf c = range.cls) ∨
          table.parts.classes.ranges.toList.filter (fun range => range.Holds c.val) = [] ∧
            table.classOf c = otherClass)) ∧
    (∀ cls, Interval.Separate (table.parts.classes.intervalsOf cls) ∧
      ∀ point, (∃ interval ∈ table.parts.classes.intervalsOf cls, interval.Holds point) ↔
        table.parts.classes.Lists cls point) ∧
    (∀ cls, cls ≠ otherClass → ∀ c, table.classOf c = cls ↔
      ∃ interval ∈ table.parts.classes.intervalsOf cls, interval.Holds c.toNat) ∧
    ∀ c, table.classOf c = otherClass ↔
      (∃ interval ∈ table.parts.classes.intervalsOf otherClass, interval.Holds c.toNat) ∨
        asciiCount ≤ c.toNat ∧ ∀ range ∈ table.parts.classes.ranges, ¬ range.Holds c.val := by
  have valid := table.valid.classes_valid
  refine ⟨?_, ?_, ?_, ?_⟩
  · exact fun c => ⟨table.parts.classes.ascii_of_lt, valid.classOf_of_le⟩
  · exact fun cls => ⟨valid.separate_intervalsOf cls,
      fun point => valid.exists_holds_intervalsOf_iff⟩
  · intro cls notOther c
    rw [classOf, valid.classOf_eq_iff, valid.exists_holds_intervalsOf_iff]
    exact or_iff_left fun unmentioned => notOther unmentioned.1
  · intro c
    rw [classOf, valid.classOf_eq_iff, valid.exists_holds_intervalsOf_iff]
    simp

/-- The class goes on beyond the end of ASCII, and two of its ranges touch. -/
example : ClassMap.intervalsOf
    { ascii := Vector.ofFn fun point => if 126 ≤ point.val then 1 else otherClass
      ranges := #[⟨128, 200, 1⟩, ⟨201, 300, 1⟩, ⟨301, 301, 2⟩, ⟨302, 302, 1⟩] } 1 =
    [⟨126, 300⟩, ⟨302, 302⟩] := by
  decide +kernel

end Table

end MaximalMunch
