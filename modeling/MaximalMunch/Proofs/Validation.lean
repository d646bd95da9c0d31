import MaximalMunch.Table.Basic

/-!
# Validation is exact

No check finds anything wrong with valid parts, and whatever does not fit together
is found by some check.  So the parts of a table always make that table again, and
no other parts make a table.
-/

namespace MaximalMunch

namespace ClassMap

theorem rangesDefect?_eq_none_of_ascending {classCount : UInt32} {floor : Option UInt32}
    {ranges : List ClassRange} (index : Nat)
    (each : ∀ range ∈ ranges, range.lo ≤ range.hi ∧ asciiCount ≤ range.lo.toNat ∧
      range.hi.toNat ≤ lastCodePoint ∧ range.cls.toUInt32 < classCount ∧
      ∀ bound ∈ floor, bound < range.lo)
    (ascending : ranges.Pairwise fun before after => before.hi < after.lo) :
    rangesDefect? classCount floor index ranges = none := by
  induction ranges generalizing floor index with
  | nil => rfl
  | cons range rest ih =>
      obtain ⟨rangeBefore, ascendingRest⟩ := List.pairwise_cons.mp ascending
      obtain ⟨ordered, outside, inside, small, behind⟩ := each range List.mem_cons_self
      have placed : wellPlaced floor range = true := by
        cases floor with
        | none => simp [wellPlaced, ordered, outside, inside]
        | some bound => simp [wellPlaced, ordered, outside, inside, behind bound rfl]
      rw [rangesDefect?, if_pos placed, if_neg (UInt32.not_le.mpr small)]
      apply ih _ _ ascendingRest
      intro other member
      obtain ⟨otherOrdered, otherOutside, otherInside, otherSmall, _⟩ :=
        each other (List.mem_cons_of_mem range member)
      refine ⟨otherOrdered, otherOutside, otherInside, otherSmall, ?_⟩
      rintro bound ⟨⟩
      exact rangeBefore other member

theorem Valid.defect?_eq_none {classes : ClassMap} {classCount : UInt32}
    (valid : classes.Valid classCount) : classes.defect? classCount = none := by
  have asciiSound : classes.asciiDefect? classCount = none := by
    rw [asciiDefect?, Option.map_eq_none_iff, List.find?_eq_none]
    intro cls member
    simpa using valid.ascii_lt cls (by simpa using member)
  rw [defect?, asciiSound, Option.none_or]
  apply rangesDefect?_eq_none_of_ascending 0 _ valid.ascending
  intro range member
  have known : range ∈ classes.ranges := Array.mem_toList_iff.mp member
  exact ⟨valid.lo_le_hi range known, valid.ascii_le_lo range known,
    valid.hi_le_last range known, valid.range_lt range known, by simp⟩

end ClassMap

namespace Parts

theorem repeatedName?_eq_none_of_nodup {seen names : List String} (nodup : names.Nodup)
    (fresh : ∀ name ∈ names, name ∉ seen) (free : KindId.unrecognizedName ∉ names) :
    repeatedName? seen names = none := by
  induction names generalizing seen with
  | nil => rfl
  | cons name rest ih =>
      obtain ⟨notInRest, restNodup⟩ := List.nodup_cons.mp nodup
      have unreserved : name ≠ KindId.unrecognizedName := by
        rintro rfl
        exact free List.mem_cons_self
      have unseen : ¬ (name = KindId.unrecognizedName ∨ name ∈ seen) :=
        not_or.mpr ⟨unreserved, fresh name List.mem_cons_self⟩
      rw [repeatedName?, if_neg unseen]
      apply ih restNodup
      · intro other member
        rw [List.mem_cons, not_or]
        refine ⟨?_, fresh other (List.mem_cons_of_mem name member)⟩
        rintro rfl
        exact notInRest member
      · exact fun member => free (List.mem_cons_of_mem name member)

variable {parts : Parts}

theorem Valid.countDefect?_eq_none (valid : parts.Valid) : parts.countDefect? = none := by
  have hasState := valid.stateCount_pos
  have hasClass := valid.classCount_pos
  have fewClasses := valid.classCount_le
  rw [countDefect?, if_neg, if_neg, if_neg (Nat.not_lt.mpr fewClasses)]
  · intro zero
    simp [zero] at hasClass
  · intro zero
    simp [zero] at hasState

theorem Valid.specialStateDefect?_eq_none (valid : parts.Valid) :
    parts.specialStateDefect? = none := by
  rw [specialStateDefect?, if_neg (UInt32.not_le.mpr valid.start_lt),
    if_neg (UInt32.not_le.mpr valid.error_lt)]

theorem Valid.shapeDefect?_eq_none (valid : parts.Valid) : parts.shapeDefect? = none := by
  simp only [shapeDefect?, valid.next_size, valid.tokenOf_size, ne_eq, not_true, if_false]

theorem Valid.targetDefect?_eq_none (valid : parts.Valid) : parts.targetDefect? = none := by
  rw [targetDefect?, Option.map_eq_none_iff, List.find?_eq_none]
  rintro ⟨target, index⟩ entry
  have member : target ∈ parts.next :=
    Array.mem_toList_iff.mp (List.mem_of_getElem? (List.mk_mem_zipIdx_iff_getElem?.mp entry))
  simpa using valid.next_lt target member

theorem Valid.kindDefect?_eq_none (valid : parts.Valid) : parts.kindDefect? = none := by
  rw [kindDefect?, Option.map_eq_none_iff, List.find?_eq_none]
  rintro ⟨kind, state⟩ entry
  have member : kind ∈ parts.tokenOf :=
    Array.mem_toList_iff.mp (List.mem_of_getElem? (List.mk_mem_zipIdx_iff_getElem?.mp entry))
  have known := valid.tokenOf_known kind member
  simp only [decide_eq_true_eq, not_and, Nat.not_le]
  exact known.resolve_left

theorem Valid.nameDefect?_eq_none (valid : parts.Valid) : parts.nameDefect? = none := by
  rw [nameDefect?, Option.map_eq_none_iff]
  apply repeatedName?_eq_none_of_nodup valid.kindNames_nodup
  · exact fun _ _ => List.not_mem_nil
  · exact fun member => valid.kindNames_free (Array.mem_toList_iff.mp member)

theorem Valid.errorStateDefect?_eq_none (valid : parts.Valid) :
    parts.errorStateDefect? = none := by
  simp [errorStateDefect?, valid.error_rejects]

theorem defect?_eq_none_iff : parts.defect? = none ↔ parts.Valid := by
  refine ⟨valid_of_defect?_eq_none, fun valid => ?_⟩
  simp only [defect?, valid.countDefect?_eq_none, valid.specialStateDefect?_eq_none,
    valid.shapeDefect?_eq_none, valid.targetDefect?_eq_none, valid.kindDefect?_eq_none,
    valid.nameDefect?_eq_none, valid.errorStateDefect?_eq_none,
    valid.classes_valid.defect?_eq_none, Option.none_or]

end Parts

namespace Table

theorem ofParts_eq_ok_iff {parts : Parts} {table : Table} :
    ofParts parts = .ok table ↔ table.parts = parts := by
  rw [ofParts]
  split
  case h_1 defect found =>
    refine iff_of_false nofun ?_
    rintro rfl
    rw [Parts.defect?_eq_none_iff.mpr table.valid] at found
    cases found
  case h_2 sound =>
    constructor
    · intro made
      cases made
      rfl
    · rintro rfl
      rfl

theorem ofParts_eq_error_iff {parts : Parts} {defect : Defect} :
    ofParts parts = .error defect ↔ parts.defect? = some defect := by
  rw [ofParts]
  split
  case h_1 found sound => rw [sound, Except.error.injEq, Option.some.injEq]
  case h_2 sound => simp [sound]

/-- Validation is exact: parts make a table exactly when they fit together, and the
table keeps them as they are. -/
theorem ofParts_succeeds_iff (parts : Parts) :
    ((∃ table, ofParts parts = .ok table) ↔ parts.Valid) ∧
      ∀ table, ofParts parts = .ok table → table.parts = parts := by
  refine ⟨⟨?_, ?_⟩, fun table => ofParts_eq_ok_iff.mp⟩
  · rintro ⟨table, made⟩
    have same := ofParts_eq_ok_iff.mp made
    exact same ▸ table.valid
  · intro valid
    exact ⟨⟨parts, valid⟩, ofParts_eq_ok_iff.mpr rfl⟩

end Table

end MaximalMunch
