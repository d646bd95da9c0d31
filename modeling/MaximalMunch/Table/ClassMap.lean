import MaximalMunch.Table.Defect

/-!
# Character classes

An automaton does not distinguish all characters: it works on classes.  The
class of an ASCII character is an entry of a vector; the class of any other
character is found by binary search in a list of disjoint ascending ranges,
and a character in no range has class `0`.

The second half of the file turns the map around: `ClassMap.intervalsOf` lists
the code points of a class as maximal intervals.
-/

namespace MaximalMunch

/-- Number of characters whose class is stored in a vector. -/
abbrev asciiCount : Nat := 128

abbrev lastCodePoint : Nat := 0x10FFFF

/-- The class of every character that nothing else covers. -/
def otherClass : UInt16 := 0

/-- The code points from `lo` to `hi`, both included, all in class `cls`. -/
structure ClassRange where
  lo : UInt32
  hi : UInt32
  cls : UInt16
  deriving DecidableEq, Repr

def ClassRange.Holds (range : ClassRange) (point : UInt32) : Prop :=
  range.lo ≤ point ∧ point ≤ range.hi

instance (range : ClassRange) (point : UInt32) : Decidable (range.Holds point) :=
  inferInstanceAs (Decidable (_ ∧ _))

structure ClassMap where
  ascii : Vector UInt16 asciiCount
  ranges : Array ClassRange
  deriving DecidableEq, Repr

namespace ClassMap

/-- The map that puts every character into the class of all others. -/
def blank : ClassMap where
  ascii := Vector.replicate asciiCount otherClass
  ranges := #[]

/-- Binary search for the range that holds `point` among the positions from
`first` up to, and not including, `last`. -/
def searchRange (ranges : Array ClassRange) (point : UInt32)
    (first last : Nat) (lastBound : last ≤ ranges.size) : Option ClassRange :=
  if nonempty : first < last then
    let middle := first + (last - first) / 2
    have middleBound : middle < ranges.size := by omega
    let range := ranges[middle]
    if range.hi < point then
      searchRange ranges point (middle + 1) last lastBound
    else if point < range.lo then
      searchRange ranges point first middle (by omega)
    else
      some range
  else
    none
termination_by last - first

/-- The range that holds `point`, when the ranges ascend. -/
def rangeAt? (classes : ClassMap) (point : UInt32) : Option ClassRange :=
  searchRange classes.ranges point 0 classes.ranges.size (Nat.le_refl _)

def classOf (classes : ClassMap) (c : Char) : UInt16 :=
  if ascii : c.toNat < asciiCount then
    classes.ascii[c.toNat]
  else
    ((classes.rangeAt? c.val).map ClassRange.cls).getD otherClass

/-- What a table demands of its class map: classes below `classCount`, and
ranges that are nonempty, outside ASCII, inside Unicode and ascending. -/
structure Valid (classes : ClassMap) (classCount : UInt32) : Prop where
  ascii_lt : ∀ cls ∈ classes.ascii, cls.toUInt32 < classCount
  lo_le_hi : ∀ range ∈ classes.ranges, range.lo ≤ range.hi
  ascii_le_lo : ∀ range ∈ classes.ranges, asciiCount ≤ range.lo.toNat
  hi_le_last : ∀ range ∈ classes.ranges, range.hi.toNat ≤ lastCodePoint
  range_lt : ∀ range ∈ classes.ranges, range.cls.toUInt32 < classCount
  ascending : classes.ranges.toList.Pairwise fun before after => before.hi < after.lo

/-- The first class of the ASCII vector that is too large. -/
def asciiDefect? (classes : ClassMap) (classCount : UInt32) : Option Defect :=
  (classes.ascii.toList.find? fun cls => classCount ≤ cls.toUInt32).map
    fun cls => .classOutOfRange cls classCount

/-- Whether a range is nonempty, outside ASCII, inside Unicode and behind
`floor`, the end of the range before it. -/
def wellPlaced (floor : Option UInt32) (range : ClassRange) : Bool :=
  range.lo ≤ range.hi && asciiCount ≤ range.lo.toNat &&
    range.hi.toNat ≤ lastCodePoint && floor.all (· < range.lo)

/-- The first defect of the ranges from position `index` on. -/
def rangesDefect? (classCount : UInt32) :
    Option UInt32 → Nat → List ClassRange → Option Defect
  | _, _, [] => none
  | floor, index, range :: rest =>
      if wellPlaced floor range then
        if classCount ≤ range.cls.toUInt32 then
          some (.classOutOfRange range.cls classCount)
        else
          rangesDefect? classCount (some range.hi) (index + 1) rest
      else
        some (.badClassRange index)

def defect? (classes : ClassMap) (classCount : UInt32) : Option Defect :=
  (classes.asciiDefect? classCount).or
    (rangesDefect? classCount none 0 classes.ranges.toList)

/-- A list of ranges without a defect lies behind its floor, ascends, and is
well formed throughout. -/
theorem rangesDefect?_eq_none {classCount : UInt32} {floor : Option UInt32}
    {index : Nat} {ranges : List ClassRange}
    (sound : rangesDefect? classCount floor index ranges = none) :
    (∀ range ∈ ranges, range.lo ≤ range.hi ∧ asciiCount ≤ range.lo.toNat ∧
      range.hi.toNat ≤ lastCodePoint ∧ range.cls.toUInt32 < classCount ∧
      ∀ bound ∈ floor, bound < range.lo) ∧
    ranges.Pairwise fun before after => before.hi < after.lo := by
  induction ranges generalizing floor index with
  | nil => simp
  | cons range rest ih =>
      simp only [rangesDefect?] at sound
      split at sound
      case isFalse => cases sound
      case isTrue placed =>
        split at sound
        case isTrue => cases sound
        case isFalse small =>
          obtain ⟨restSound, restAscends⟩ := ih sound
          simp only [wellPlaced, Bool.and_eq_true, decide_eq_true_eq] at placed
          obtain ⟨⟨⟨ordered, outside⟩, inside⟩, behind⟩ := placed
          have behindFloor : ∀ bound ∈ floor, bound < range.lo := by
            intro bound member
            cases member
            simpa using behind
          refine ⟨?_, List.pairwise_cons.mpr ⟨?_, restAscends⟩⟩
          · intro other member
            rcases List.mem_cons.mp member with rfl | member
            · exact ⟨ordered, outside, inside, UInt32.not_le.mp small, behindFloor⟩
            · obtain ⟨order, outsideOther, insideOther, smallOther, behindRange⟩ :=
                restSound other member
              refine ⟨order, outsideOther, insideOther, smallOther, ?_⟩
              intro bound bounded
              have first := behindFloor bound bounded
              have second := behindRange range.hi rfl
              exact UInt32.lt_of_lt_of_le first
                (UInt32.le_trans ordered (UInt32.le_of_lt second))
          · intro other member
            exact (restSound other member).2.2.2.2 range.hi rfl

/-- A class map without a defect is valid. -/
theorem valid_of_defect?_eq_none {classes : ClassMap} {classCount : UInt32}
    (sound : classes.defect? classCount = none) : classes.Valid classCount := by
  simp only [defect?, Option.or_eq_none_iff, asciiDefect?, Option.map_eq_none_iff,
    List.find?_eq_none, decide_eq_true_eq, UInt32.not_le] at sound
  obtain ⟨asciiSound, rangesSound⟩ := sound
  obtain ⟨each, ascends⟩ := rangesDefect?_eq_none rangesSound
  constructor
  case ascii_lt =>
    intro cls member
    exact asciiSound cls (by simpa using member)
  case ascending => exact ascends
  all_goals
    intro range member
    have facts := each range (by simpa using member)
  · exact facts.1
  · exact facts.2.1
  · exact facts.2.2.1
  · exact facts.2.2.2.1

end ClassMap

/-- The code points from `first` to `last`, both included. -/
structure Interval where
  first : Nat
  last : Nat
  deriving DecidableEq, Repr

namespace Interval

/-- Put an interval in front of a list, gluing it to an interval that starts
right behind it. -/
def glue (interval : Interval) : List Interval → List Interval
  | [] => [interval]
  | next :: rest =>
      if interval.last + 1 = next.first then
        ⟨interval.first, next.last⟩ :: rest
      else
        interval :: next :: rest

/-- Glue together all neighbours that touch. -/
def coalesce (intervals : List Interval) : List Interval :=
  intervals.foldr glue []

end Interval

namespace ClassMap

/-- The ASCII characters of a class, one by one. -/
def asciiPieces (classes : ClassMap) (cls : UInt16) : List Interval :=
  (classes.ascii.toList.zipIdx.filter fun entry => entry.1 == cls).map
    fun entry => Interval.mk entry.2 entry.2

def rangePieces (classes : ClassMap) (cls : UInt16) : List Interval :=
  (classes.ranges.toList.filter fun range => range.cls == cls).map
    fun range => Interval.mk range.lo.toNat range.hi.toNat

/-- The code points of a class, as ascending intervals between which at least
one code point is missing.  Characters that no range lists are not counted to
the class of all others. -/
def intervalsOf (classes : ClassMap) (cls : UInt16) : List Interval :=
  Interval.coalesce (classes.asciiPieces cls ++ classes.rangePieces cls)

end ClassMap

end MaximalMunch
