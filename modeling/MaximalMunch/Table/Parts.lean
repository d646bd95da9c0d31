import MaximalMunch.Table.ClassMap

/-!
# Parts of a table

A rule compiler, a builder or a file hands over the raw parts of a scanning
automaton: counts, a class map, a transition matrix in row-major order, the
kind accepted by each state, and the names of the kinds.  `Parts.Valid` states
when the parts fit together, and `Parts.defect?` looks for the first thing
that is wrong with them.  Parts without a defect are valid.
-/

namespace MaximalMunch

structure Parts where
  stateCount : UInt32
  classCount : UInt32
  classes : ClassMap
  /-- The target for each state and class, one row for each state. -/
  next : Array StateId
  /-- The kind that each state accepts, or `KindId.absent`. -/
  tokenOf : Array KindId
  kindNames : Array String
  start : StateId
  error : StateId
  deriving DecidableEq, Repr

namespace Parts

/-- Class numbers are 16 bits wide, so no more classes than this can be told
apart. -/
abbrev maxClassCount : Nat := 65536

/-- The parts fit together: counts and shapes agree, every number that names
something names something that exists, the error state accepts nothing, and
kind names are distinct and leave the reserved name alone. -/
structure Valid (parts : Parts) : Prop where
  stateCount_pos : 1 ≤ parts.stateCount.toNat
  classCount_pos : 1 ≤ parts.classCount.toNat
  classCount_le : parts.classCount.toNat ≤ maxClassCount
  start_lt : parts.start < parts.stateCount
  error_lt : parts.error < parts.stateCount
  next_size : parts.next.size = parts.stateCount.toNat * parts.classCount.toNat
  next_lt : ∀ target ∈ parts.next, target < parts.stateCount
  tokenOf_size : parts.tokenOf.size = parts.stateCount.toNat
  tokenOf_known : ∀ kind ∈ parts.tokenOf,
    kind = KindId.absent ∨ kind.toNat < parts.kindNames.size
  error_rejects : parts.tokenOf[parts.error.toNat]? = some KindId.absent
  kindNames_nodup : parts.kindNames.toList.Nodup
  kindNames_free : KindId.unrecognizedName ∉ parts.kindNames
  classes_valid : parts.classes.Valid parts.classCount

def countDefect? (parts : Parts) : Option Defect :=
  if parts.stateCount = 0 then some .noStates
  else if parts.classCount = 0 then some .noClasses
  else if maxClassCount < parts.classCount.toNat then
    some (.tooManyClasses parts.classCount.toNat)
  else none

def specialStateDefect? (parts : Parts) : Option Defect :=
  if parts.stateCount ≤ parts.start then
    some (.initialOutOfRange parts.start parts.stateCount)
  else if parts.stateCount ≤ parts.error then
    some (.errorOutOfRange parts.error parts.stateCount)
  else none

def shapeDefect? (parts : Parts) : Option Defect :=
  let entries := parts.stateCount.toNat * parts.classCount.toNat
  if parts.next.size ≠ entries then
    some (.transitionShape entries parts.next.size)
  else if parts.tokenOf.size ≠ parts.stateCount.toNat then
    some (.tokenMapShape parts.stateCount.toNat parts.tokenOf.size)
  else none

/-- The first transition, in row-major order, to a missing state. -/
def targetDefect? (parts : Parts) : Option Defect :=
  (parts.next.toList.zipIdx.find? fun entry => parts.stateCount ≤ entry.1).map
    fun (target, index) =>
      .targetOutOfRange (index / parts.classCount.toNat)
        (index % parts.classCount.toNat) target

/-- The first state that accepts a kind without a name. -/
def kindDefect? (parts : Parts) : Option Defect :=
  (parts.tokenOf.toList.zipIdx.find? fun entry =>
      entry.1 ≠ KindId.absent ∧ parts.kindNames.size ≤ entry.1.toNat).map
    fun (kind, state) => .unknownKind state kind parts.kindNames.size

/-- The first name that is reserved or among the names before it, which are
held in `seen`. -/
def repeatedName? (seen : List String) : List String → Option String
  | [] => none
  | name :: rest =>
      if name = KindId.unrecognizedName ∨ name ∈ seen then
        some name
      else
        repeatedName? (name :: seen) rest

def nameDefect? (parts : Parts) : Option Defect :=
  (repeatedName? [] parts.kindNames.toList).map .duplicateKindName

def errorStateDefect? (parts : Parts) : Option Defect :=
  match parts.tokenOf[parts.error.toNat]? with
  | none => some (.errorOutOfRange parts.error parts.stateCount)
  | some kind =>
      if kind = KindId.absent then none
      else some (.errorStateAccepting parts.error kind)

/-- The first defect of the parts.  The order of the checks decides which one
is reported when there are several. -/
def defect? (parts : Parts) : Option Defect :=
  parts.countDefect?
    |>.or parts.specialStateDefect?
    |>.or parts.shapeDefect?
    |>.or parts.targetDefect?
    |>.or parts.kindDefect?
    |>.or parts.nameDefect?
    |>.or parts.errorStateDefect?
    |>.or (parts.classes.defect? parts.classCount)

theorem nodup_of_repeatedName?_eq_none {seen names : List String}
    (unrepeated : repeatedName? seen names = none) :
    names.Nodup ∧ (∀ name ∈ names, name ∉ seen) ∧
      KindId.unrecognizedName ∉ names := by
  induction names generalizing seen with
  | nil => simp
  | cons name rest ih =>
      simp only [repeatedName?] at unrepeated
      split at unrepeated
      case isTrue => cases unrepeated
      case isFalse fresh =>
        obtain ⟨restNodup, restFresh, restFree⟩ := ih unrepeated
        have nameFresh : name ∉ seen := fun member => fresh (.inr member)
        have nameFree : name ≠ KindId.unrecognizedName :=
          fun reserved => fresh (.inl reserved)
        refine ⟨List.nodup_cons.mpr ⟨?_, restNodup⟩, ?_, ?_⟩
        · intro member
          exact restFresh name member List.mem_cons_self
        · intro other member
          rcases List.mem_cons.mp member with rfl | member
          · exact nameFresh
          · intro seenMember
            exact restFresh other member (List.mem_cons_of_mem _ seenMember)
        · intro member
          rcases List.mem_cons.mp member with reserved | member
          · exact nameFree reserved.symm
          · exact restFree member

theorem countDefect?_eq_none {parts : Parts} (sound : parts.countDefect? = none) :
    parts.stateCount ≠ 0 ∧ parts.classCount ≠ 0 ∧
      parts.classCount.toNat ≤ maxClassCount := by
  simp only [countDefect?] at sound
  grind

theorem specialStateDefect?_eq_none {parts : Parts}
    (sound : parts.specialStateDefect? = none) :
    parts.start < parts.stateCount ∧ parts.error < parts.stateCount := by
  simp only [specialStateDefect?] at sound
  split at sound
  · cases sound
  · split at sound
    · cases sound
    · exact ⟨UInt32.not_le.mp ‹_›, UInt32.not_le.mp ‹_›⟩

theorem shapeDefect?_eq_none {parts : Parts} (sound : parts.shapeDefect? = none) :
    parts.next.size = parts.stateCount.toNat * parts.classCount.toNat ∧
      parts.tokenOf.size = parts.stateCount.toNat := by
  simp only [shapeDefect?] at sound
  grind

theorem targetDefect?_eq_none {parts : Parts} (sound : parts.targetDefect? = none) :
    ∀ target ∈ parts.next, target < parts.stateCount := by
  intro target member
  simp only [targetDefect?, Option.map_eq_none_iff, List.find?_eq_none,
    decide_eq_true_eq, UInt32.not_le] at sound
  obtain ⟨index, found⟩ := List.getElem?_of_mem (Array.mem_toList_iff.mpr member)
  exact sound (target, index) (List.mk_mem_zipIdx_iff_getElem?.mpr found)

theorem kindDefect?_eq_none {parts : Parts} (sound : parts.kindDefect? = none) :
    ∀ kind ∈ parts.tokenOf,
      kind = KindId.absent ∨ kind.toNat < parts.kindNames.size := by
  intro kind member
  simp only [kindDefect?, Option.map_eq_none_iff, List.find?_eq_none,
    decide_eq_true_eq] at sound
  obtain ⟨state, found⟩ := List.getElem?_of_mem (Array.mem_toList_iff.mpr member)
  have known := sound (kind, state) (List.mk_mem_zipIdx_iff_getElem?.mpr found)
  grind

theorem nameDefect?_eq_none {parts : Parts} (sound : parts.nameDefect? = none) :
    parts.kindNames.toList.Nodup ∧
      KindId.unrecognizedName ∉ parts.kindNames := by
  simp only [nameDefect?, Option.map_eq_none_iff] at sound
  obtain ⟨nodup, _, free⟩ := nodup_of_repeatedName?_eq_none sound
  exact ⟨nodup, fun member => free (Array.mem_toList_iff.mpr member)⟩

theorem errorStateDefect?_eq_none {parts : Parts}
    (sound : parts.errorStateDefect? = none) :
    parts.tokenOf[parts.error.toNat]? = some KindId.absent := by
  simp only [errorStateDefect?] at sound
  grind

/-- Parts in which no check finds anything wrong are valid. -/
theorem valid_of_defect?_eq_none {parts : Parts} (sound : parts.defect? = none) :
    parts.Valid := by
  simp only [defect?, Option.or_eq_none_iff] at sound
  obtain ⟨⟨⟨⟨⟨⟨⟨counts, special⟩, shape⟩, targets⟩, kinds⟩, names⟩, errorState⟩,
    classes⟩ := sound
  obtain ⟨hasState, hasClass, fewClasses⟩ := countDefect?_eq_none counts
  obtain ⟨startBound, errorBound⟩ := specialStateDefect?_eq_none special
  obtain ⟨nextShape, tokenShape⟩ := shapeDefect?_eq_none shape
  obtain ⟨namesNodup, namesFree⟩ := nameDefect?_eq_none names
  have positive : ∀ count : UInt32, count ≠ 0 → 1 ≤ count.toNat := by
    intro count nonzero
    rcases Nat.eq_zero_or_pos count.toNat with zero | positive
    · exact absurd (UInt32.toNat_inj.mp zero) nonzero
    · exact positive
  exact {
    stateCount_pos := positive _ hasState
    classCount_pos := positive _ hasClass
    classCount_le := fewClasses
    start_lt := startBound
    error_lt := errorBound
    next_size := nextShape
    next_lt := targetDefect?_eq_none targets
    tokenOf_size := tokenShape
    tokenOf_known := kindDefect?_eq_none kinds
    error_rejects := errorStateDefect?_eq_none errorState
    kindNames_nodup := namesNodup
    kindNames_free := namesFree
    classes_valid := ClassMap.valid_of_defect?_eq_none classes }

end Parts

end MaximalMunch
