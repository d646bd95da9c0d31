import MaximalMunch.Table.Basic

/-!
# Looking up classes

The ranges of a valid class map ascend, so at most one of them holds a code
point, and binary search finds it.
-/

namespace MaximalMunch

namespace ClassMap

variable {ranges : Array ClassRange} {point : UInt32}

theorem holds_of_searchRange {first last : Nat} {lastBound : last ≤ ranges.size}
    {range : ClassRange}
    (found : searchRange ranges point first last lastBound = some range) :
    range ∈ ranges ∧ range.Holds point := by
  fun_induction searchRange ranges point first last lastBound with
  | case1 first last lastBound nonempty middle middleBound current before ih =>
      exact ih found
  | case2 first last lastBound nonempty middle middleBound current notBefore behind ih =>
      exact ih found
  | case3 first last lastBound nonempty middle middleBound current notBefore notBehind =>
      obtain rfl := Option.some.inj found
      exact ⟨Array.getElem_mem middleBound, UInt32.not_lt.mp notBehind,
        UInt32.not_lt.mp notBefore⟩
  | case4 first last lastBound exhausted => cases found

theorem lt_lo_of_lt
    (ascending : ranges.toList.Pairwise fun before after => before.hi < after.lo)
    {index other : Nat} (indexLt : index < other) (otherLt : other < ranges.size)
    (holds : ranges[index].Holds point) : point < ranges[other].lo := by
  have apart := List.pairwise_iff_getElem.mp ascending index other
    (by simpa using Nat.lt_trans indexLt otherLt) (by simpa using otherLt) indexLt
  simp only [Array.getElem_toList] at apart
  exact UInt32.lt_of_le_of_lt holds.2 apart

theorem hi_lt_of_lt
    (ascending : ranges.toList.Pairwise fun before after => before.hi < after.lo)
    {index other : Nat} (otherLt : other < index) (indexLt : index < ranges.size)
    (holds : ranges[index].Holds point) : ranges[other].hi < point := by
  have apart := List.pairwise_iff_getElem.mp ascending other index
    (by simpa using Nat.lt_trans otherLt indexLt) (by simpa using indexLt) otherLt
  simp only [Array.getElem_toList] at apart
  exact UInt32.lt_of_lt_of_le apart holds.1

/-- Among ascending ranges, binary search does not miss the one that holds the
code point. -/
theorem searchRange_of_holds
    (ordered : ∀ range ∈ ranges, range.lo ≤ range.hi)
    (ascending : ranges.toList.Pairwise fun before after => before.hi < after.lo)
    {first last index : Nat} {lastBound : last ≤ ranges.size}
    (firstLe : first ≤ index) (indexLt : index < last)
    (holds : ranges[index].Holds point) :
    searchRange ranges point first last lastBound = some ranges[index] := by
  fun_induction searchRange ranges point first last lastBound with
  | case1 first last lastBound nonempty middle middleBound current before ih =>
      have middleLt : middle < index := by
        refine Nat.lt_of_not_le fun indexLe => ?_
        rcases Nat.lt_or_eq_of_le indexLe with indexLt | rfl
        · have behind := lt_lo_of_lt ascending indexLt middleBound holds
          have currentOrdered := ordered current (Array.getElem_mem middleBound)
          exact UInt32.lt_irrefl point (UInt32.lt_trans behind
            (UInt32.lt_of_le_of_lt currentOrdered before))
        · exact UInt32.not_lt.mpr holds.2 before
      exact ih middleLt indexLt holds
  | case2 first last lastBound nonempty middle middleBound current notBefore behind ih =>
      have indexBefore : index < middle := by
        refine Nat.lt_of_not_le fun middleLe => ?_
        rcases Nat.lt_or_eq_of_le middleLe with middleLt | rfl
        · have before := hi_lt_of_lt ascending middleLt (by omega) holds
          exact notBefore before
        · exact UInt32.not_lt.mpr holds.1 behind
      exact ih firstLe indexBefore holds
  | case3 first last lastBound nonempty middle middleBound current notBefore notBehind =>
      have sameIndex : index = middle := by
        rcases Nat.lt_trichotomy index middle with indexLt | same | middleLt
        · exact absurd (lt_lo_of_lt ascending indexLt middleBound holds) notBehind
        · exact same
        · exact absurd (hi_lt_of_lt ascending middleLt (by omega) holds) notBefore
      subst sameIndex
      rfl
  | case4 first last lastBound exhausted => omega

variable {classes : ClassMap} {classCount : UInt32}

/-- The range that is found for a code point is the one that holds it. -/
theorem rangeAt?_eq_some_iff (valid : classes.Valid classCount) {range : ClassRange} :
    classes.rangeAt? point = some range ↔ range ∈ classes.ranges ∧ range.Holds point := by
  constructor
  · exact holds_of_searchRange
  · rintro ⟨member, holds⟩
    obtain ⟨index, indexLt, rfl⟩ := Array.mem_iff_getElem.mp member
    exact searchRange_of_holds valid.lo_le_hi valid.ascending (Nat.zero_le index) indexLt
      holds

theorem rangeAt?_eq_none_iff (valid : classes.Valid classCount) :
    classes.rangeAt? point = none ↔ ∀ range ∈ classes.ranges, ¬ range.Holds point := by
  rw [Option.eq_none_iff_forall_ne_some]
  constructor
  · intro nothing range member holds
    exact nothing range ((rangeAt?_eq_some_iff valid).mpr ⟨member, holds⟩)
  · intro nothing range found
    obtain ⟨member, holds⟩ := (rangeAt?_eq_some_iff valid).mp found
    exact nothing range member holds

end ClassMap

end MaximalMunch
