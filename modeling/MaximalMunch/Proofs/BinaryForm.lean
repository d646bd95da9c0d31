import MaximalMunch.Format.Binary
import MaximalMunch.Proofs.Validation

/-!
# Reading undoes writing in the binary form

Nothing in a file says where its sections end, so each reader must take exactly
the bytes that its value is written with, whatever follows them.  Readers with
this property can be put one behind the other and repeated.  For the reader of
all parts the shapes of the matrix and of the token map, and the widths of the
counts and lengths, decide which parts can be read back.
-/

namespace MaximalMunch

namespace Binary

/-- The reader takes from the front of the bytes what a value is written with,
and yields just the values that fit. -/
def Undoes {α : Type} (read : Reader α) (write : α → List UInt8) (fits : α → Prop) : Prop :=
  ∀ bytes value rest, read bytes = .ok (value, rest) ↔ fits value ∧ bytes = write value ++ rest

section Readers

variable {α β : Type} {bytes rest : List UInt8}

theorem bind_eq_ok_iff {read : Reader α} {next : α → Reader β} {value : β} :
    (read >>= next) bytes = .ok (value, rest) ↔
      ∃ first middle, read bytes = .ok (first, middle) ∧
        next first middle = .ok (value, rest) := by
  change (do let (first, middle) ← read bytes; next first middle) = .ok (value, rest) ↔ _
  cases read bytes with
  | error defect => exact iff_of_false nofun nofun
  | ok answer =>
      obtain ⟨first, middle⟩ := answer
      constructor
      · exact fun done => ⟨first, middle, rfl, done⟩
      · rintro ⟨_, _, ⟨⟩, done⟩
        exact done

theorem pure_eq_ok_iff {made value : α} :
    (pure made : Reader α) bytes = .ok (value, rest) ↔ made = value ∧ bytes = rest := by
  change Except.ok (made, bytes) = .ok (value, rest) ↔ _
  simp

theorem readBytes_eq_ok_iff {place : Section} {count : Nat} {front : List UInt8} :
    readBytes place count bytes = .ok (front, rest) ↔
      front.length = count ∧ bytes = front ++ rest := by
  simp only [readBytes, List.splitAt_eq]
  split
  case isTrue complete =>
    rw [Except.ok.injEq, Prod.mk.injEq]
    constructor
    · rintro ⟨rfl, rfl⟩
      exact ⟨complete, (List.take_append_drop count bytes).symm⟩
    · rintro ⟨rfl, rfl⟩
      simp
  case isFalse short =>
    refine iff_of_false nofun ?_
    rintro ⟨rfl, rfl⟩
    simp at short

theorem readWord16_undoes (place : Section) :
    Undoes (readWord16 place) LittleEndian.bytes16 fun _ => True := by
  intro bytes word rest
  rw [true_and]
  rcases bytes with _ | ⟨b₀, _ | ⟨b₁, following⟩⟩
  case cons.cons =>
    rw [readWord16, Except.ok.injEq, Prod.mk.injEq, LittleEndian.word16_eq_iff]
    simp [LittleEndian.bytes16, and_assoc]
  all_goals simp [readWord16, LittleEndian.bytes16]

theorem readWord32_undoes (place : Section) :
    Undoes (readWord32 place) LittleEndian.bytes32 fun _ => True := by
  intro bytes word rest
  rw [true_and]
  rcases bytes with _ | ⟨b₀, _ | ⟨b₁, _ | ⟨b₂, _ | ⟨b₃, following⟩⟩⟩⟩
  case cons.cons.cons.cons =>
    rw [readWord32, Except.ok.injEq, Prod.mk.injEq, LittleEndian.word32_eq_iff]
    simp [LittleEndian.bytes32, and_assoc]
  all_goals simp [readWord32, LittleEndian.bytes32]

theorem readRange_undoes : Undoes readRange encodeRange fun _ => True := by
  intro bytes range rest
  simp only [readRange, bind_eq_ok_iff, pure_eq_ok_iff, readWord32_undoes _ _ _ _,
    readWord16_undoes _ _ _ _, true_and]
  constructor
  · rintro ⟨lo, _, rfl, hi, _, rfl, cls, _, rfl, rfl, rfl⟩
    simp [encodeRange]
  · rintro rfl
    refine ⟨range.lo, LittleEndian.bytes32 range.hi ++ (LittleEndian.bytes16 range.cls ++ rest),
      ?_, range.hi, _, rfl, range.cls, _, rfl, rfl, rfl⟩
    simp [encodeRange]

/-- The length of a name fits into its field. -/
def NameFits (name : String) : Prop :=
  (Text.utf8 name).length < UInt32.size

theorem readName_undoes (index : Nat) : Undoes (readName index) encodeName NameFits := by
  intro bytes name rest
  simp only [readName, bind_eq_ok_iff, readWord32_undoes _ _ _ _, readBytes_eq_ok_iff, true_and]
  constructor
  · rintro ⟨length, _, rfl, text, following, ⟨lengthEq, rfl⟩, named⟩
    cases read : Text.ofUtf8? text with
    | none =>
        rw [read] at named
        cases named
    | some found =>
        rw [read] at named
        obtain ⟨rfl, rfl⟩ := pure_eq_ok_iff.mp named
        have textEq := Text.utf8_of_ofUtf8?_eq_some read
        refine ⟨?_, ?_⟩
        · rw [NameFits, textEq, lengthEq]
          exact length.toNat_lt
        · rw [encodeName, textEq, lengthEq, UInt32.ofNat_toNat, List.append_assoc]
  · rintro ⟨fits, rfl⟩
    refine ⟨_, _, List.append_assoc _ _ _, _, rest, ⟨?_, rfl⟩, ?_⟩
    · exact (UInt32.toNat_ofNat_of_lt' fits).symm
    · rw [Text.ofUtf8?_utf8]
      rfl

theorem readMany_eq_ok_iff {read : Nat → Reader α} {write : α → List UInt8} {fits : α → Prop}
    (undoes : ∀ index, Undoes (read index) write fits) {count : Nat} {earlier all : Array α} :
    readMany read count earlier bytes = .ok (all, rest) ↔
      ∃ values : List α, values.length = count ∧ (∀ value ∈ values, fits value) ∧
        all = earlier ++ values ∧ bytes = values.flatMap write ++ rest := by
  induction count generalizing earlier bytes with
  | zero =>
      rw [readMany, Except.ok.injEq, Prod.mk.injEq]
      constructor
      · rintro ⟨rfl, rfl⟩
        exact ⟨[], rfl, by simp, by simp, rfl⟩
      · rintro ⟨values, empty, _, rfl, rfl⟩
        obtain rfl := List.length_eq_zero_iff.mp empty
        simp
  | succ count ih =>
      constructor
      · intro done
        rw [readMany] at done
        cases readFirst : read earlier.size bytes with
        | error defect =>
            rw [readFirst] at done
            cases done
        | ok answer =>
            obtain ⟨value, following⟩ := answer
            rw [readFirst] at done
            obtain ⟨valueFits, rfl⟩ := (undoes _ _ _ _).mp readFirst
            obtain ⟨values, lengthEq, fit, rfl, rfl⟩ := ih.mp done
            refine ⟨value :: values, by simp [lengthEq],
              List.forall_mem_cons.mpr ⟨valueFits, fit⟩, by simp, by simp⟩
      · rintro ⟨values, lengthEq, fit, rfl, rfl⟩
        obtain ⟨value, values, rfl⟩ := List.exists_cons_of_length_eq_add_one lengthEq
        obtain ⟨valueFits, fit⟩ := List.forall_mem_cons.mp fit
        have readFirst : read earlier.size ((value :: values).flatMap write ++ rest) =
            .ok (value, values.flatMap write ++ rest) :=
          (undoes _ _ _ _).mpr ⟨valueFits, by simp⟩
        rw [readMany, readFirst]
        exact ih.mpr ⟨values, Nat.succ.inj lengthEq, fit, by simp, rfl⟩

theorem readArray_undoes {read : Nat → Reader α} {write : α → List UInt8} {fits : α → Prop}
    (undoes : ∀ index, Undoes (read index) write fits) (count : Nat) :
    Undoes (readArray read count) (fun values => values.toList.flatMap write)
      fun values => values.size = count ∧ ∀ value ∈ values, fits value := by
  intro bytes values rest
  rw [readArray, readMany_eq_ok_iff undoes]
  constructor
  · rintro ⟨list, lengthEq, fit, rfl, rfl⟩
    simpa [lengthEq] using fit
  · rintro ⟨⟨sizeEq, fit⟩, rfl⟩
    exact ⟨values.toList, by simpa using sizeEq, by simpa using fit, by simp, rfl⟩

end Readers

/-- The parts agree with the counts that stand for them in a header, and the
fields are wide enough for them. -/
structure Fits (parts : Parts) : Prop where
  next_size : parts.next.size = parts.stateCount.toNat * parts.classCount.toNat
  tokenOf_size : parts.tokenOf.size = parts.stateCount.toNat
  ranges_size_lt : parts.classes.ranges.size < UInt32.size
  kindNames_size_lt : parts.kindNames.size < UInt32.size
  names_fit : ∀ name ∈ parts.kindNames, NameFits name

theorem ofFn_getD (classes : Vector UInt16 asciiCount) :
    (Vector.ofFn fun point : Fin asciiCount => classes.toArray.getD point.val otherClass) =
      classes := by
  ext index indexLt
  simp

theorem toList_ofFn_getD {classes : Array UInt16} (complete : classes.size = asciiCount) :
    (Vector.ofFn fun point : Fin asciiCount => classes.getD point.val otherClass).toList =
      classes.toList :=
  congrArg Vector.toList (ofFn_getD ⟨classes, complete⟩)

theorem readWords_undoes (place : Section) (count : Nat) :
    Undoes (readArray (fun _ => readWord32 place) count)
      (fun words => words.toList.flatMap LittleEndian.bytes32) fun words => words.size = count := by
  simpa using readArray_undoes (fun _ => readWord32_undoes place) count

theorem readRanges_undoes (count : Nat) :
    Undoes (readArray (fun _ => readRange) count)
      (fun ranges => ranges.toList.flatMap encodeRange) fun ranges => ranges.size = count := by
  simpa using readArray_undoes (fun _ => readRange_undoes) count

theorem readAscii_undoes :
    Undoes (readArray (fun _ => readWord16 .asciiClasses) asciiCount)
      (fun classes => classes.toList.flatMap LittleEndian.bytes16)
      fun classes => classes.size = asciiCount := by
  simpa using readArray_undoes (fun _ => readWord16_undoes .asciiClasses) asciiCount

/-- The bytes of a file in the order in which a reader takes them. -/
theorem sections_append (parts : Parts) (rest : List UInt8) :
    sections.flatMap (encodeSection parts) ++ rest =
      magic ++ (LittleEndian.bytes32 parts.stateCount ++
        (LittleEndian.bytes32 parts.classCount ++ (LittleEndian.bytes32 parts.start ++
        (LittleEndian.bytes32 parts.error ++
        (LittleEndian.bytes32 (UInt32.ofNat parts.classes.ranges.size) ++
        (LittleEndian.bytes32 (UInt32.ofNat parts.kindNames.size) ++
        (parts.classes.ascii.toList.flatMap LittleEndian.bytes16 ++
        (parts.classes.ranges.toList.flatMap encodeRange ++
        (parts.next.toList.flatMap LittleEndian.bytes32 ++
        (parts.tokenOf.toList.flatMap LittleEndian.bytes32 ++
        (parts.kindNames.toList.flatMap encodeName ++ rest))))))))))) := by
  simp [sections, encodeSection]

theorem readParts_undoes :
    Undoes readParts (fun parts => sections.flatMap (encodeSection parts)) Fits := by
  intro bytes parts rest
  rw [readParts, bind_eq_ok_iff, sections_append]
  constructor
  · rintro ⟨found, following, foundRead, done⟩
    obtain ⟨_, rfl⟩ := readBytes_eq_ok_iff.mp foundRead
    split at done
    case isTrue =>
      obtain ⟨_, _, thrown, _⟩ := bind_eq_ok_iff.mp done
      cases thrown
    case isFalse isMagic =>
      obtain rfl := Decidable.not_not.mp isMagic
      simp only [bind_eq_ok_iff, pure_eq_ok_iff, readWord32_undoes _ _ _ _, true_and,
        readAscii_undoes _ _ _, readRanges_undoes _ _ _ _, readWords_undoes _ _ _ _ _,
        readArray_undoes readName_undoes _ _ _ _] at done
      obtain ⟨stateCount, _, rfl, classCount, _, rfl, start, _, rfl, error, _, rfl,
        rangeCount, _, rfl, kindCount, _, rfl, ascii, _, ⟨asciiSize, rfl⟩,
        ranges, _, ⟨rangesSize, rfl⟩, next, _, ⟨nextSize, rfl⟩, tokenOf, _, ⟨tokenOfSize, rfl⟩,
        kindNames, _, ⟨⟨kindNamesSize, namesFit⟩, rfl⟩, rfl, rfl⟩ := done
      have rangesLt := rangeCount.toNat_lt
      have kindsLt := kindCount.toNat_lt
      refine ⟨⟨nextSize, tokenOfSize, rangesSize ▸ rangesLt, kindNamesSize ▸ kindsLt, namesFit⟩, ?_⟩
      simp only [toList_ofFn_getD asciiSize, rangesSize, kindNamesSize, UInt32.ofNat_toNat]
  · rintro ⟨fits, rfl⟩
    refine ⟨magic, _, readBytes_eq_ok_iff.mpr ⟨rfl, rfl⟩, ?_⟩
    rw [if_neg (Decidable.not_not.mpr rfl)]
    simp only [bind_eq_ok_iff, pure_eq_ok_iff, readWord32_undoes _ _ _ _, true_and,
      readAscii_undoes _ _ _, readRanges_undoes _ _ _ _, readWords_undoes _ _ _ _ _,
      readArray_undoes readName_undoes _ _ _ _]
    have rangesSize := (UInt32.toNat_ofNat_of_lt' fits.ranges_size_lt).symm
    have kindNamesSize := (UInt32.toNat_ofNat_of_lt' fits.kindNames_size_lt).symm
    refine ⟨parts.stateCount, _, rfl, parts.classCount, _, rfl, parts.start, _, rfl,
      parts.error, _, rfl, _, _, rfl, _, _, rfl, parts.classes.ascii.toArray, _, ⟨by simp, rfl⟩,
      parts.classes.ranges, _, ⟨rangesSize, rfl⟩, parts.next, _, ⟨fits.next_size, rfl⟩,
      parts.tokenOf, _, ⟨fits.tokenOf_size, rfl⟩, parts.kindNames, _,
      ⟨⟨kindNamesSize, fits.names_fit⟩, rfl⟩, ?_, rfl⟩
    rw [ofFn_getD]

/-- Ascending ranges behind a floor are no more than the code points there. -/
theorem length_le_of_ascending {ranges : List ClassRange} (floor : Nat)
    (each : ∀ range ∈ ranges, range.lo ≤ range.hi ∧ floor ≤ range.lo.toNat ∧
      range.hi.toNat ≤ lastCodePoint)
    (ascending : ranges.Pairwise fun before after => before.hi < after.lo)
    (floorLe : floor ≤ lastCodePoint + 1) :
    ranges.length + floor ≤ lastCodePoint + 1 := by
  induction ranges generalizing floor with
  | nil => simpa using floorLe
  | cons range rest ih =>
      obtain ⟨rangeBefore, ascendingRest⟩ := List.pairwise_cons.mp ascending
      obtain ⟨ordered, behind, inside⟩ := each range List.mem_cons_self
      have orderedNat := UInt32.le_iff_toNat_le.mp ordered
      have restLe : rest.length + (range.hi.toNat + 1) ≤ lastCodePoint + 1 := by
        apply ih _ _ ascendingRest (Nat.succ_le_succ inside)
        intro other member
        obtain ⟨otherOrdered, _, otherInside⟩ := each other (List.mem_cons_of_mem range member)
        exact ⟨otherOrdered, UInt32.lt_iff_toNat_lt.mp (rangeBefore other member), otherInside⟩
      rw [List.length_cons]
      omega

theorem ranges_size_lt (table : Table) : table.parts.classes.ranges.size < UInt32.size := by
  have valid := table.valid.classes_valid
  have sizeLe := length_le_of_ascending 0
    (fun range member =>
      have known := Array.mem_toList_iff.mp member
      ⟨valid.lo_le_hi range known, Nat.zero_le _, valid.hi_le_last range known⟩)
    valid.ascending (Nat.zero_le _)
  rw [Array.length_toList] at sizeLe
  exact Nat.lt_of_le_of_lt sizeLe (by decide)

variable {table : Table}

theorem fits_of_table (fewKinds : table.kindCount < UInt32.size)
    (namesFit : ∀ name ∈ table.parts.kindNames, NameFits name) : Fits table.parts where
  next_size := table.valid.next_size
  tokenOf_size := table.valid.tokenOf_size
  ranges_size_lt := ranges_size_lt table
  kindNames_size_lt := fewKinds
  names_fit := namesFit

theorem decode_eq_ok_iff_readParts {bytes : List UInt8} :
    decode bytes = .ok table ↔ ∃ rest, readParts bytes = .ok (table.parts, rest) := by
  rw [decode]
  cases read : readParts bytes with
  | error defect => exact iff_of_false nofun nofun
  | ok answer =>
      obtain ⟨parts, following⟩ := answer
      change Table.ofParts parts = .ok table ↔ _
      rw [Table.ofParts_eq_ok_iff]
      constructor
      · rintro rfl
        exact ⟨following, rfl⟩
      · rintro ⟨_, ⟨⟩⟩
        rfl

/-- Bytes decode to a table just when they begin with the bytes of that table. -/
theorem decode_eq_ok_iff (fewKinds : table.kindCount < UInt32.size)
    (namesFit : ∀ name ∈ table.parts.kindNames, NameFits name) (bytes : List UInt8) :
    decode bytes = .ok table ↔ encode table <+: bytes := by
  rw [decode_eq_ok_iff_readParts]
  constructor
  · rintro ⟨rest, read⟩
    exact ⟨rest, ((readParts_undoes _ _ _).mp read).2.symm⟩
  · rintro ⟨rest, rfl⟩
    exact ⟨rest, (readParts_undoes _ _ _).mpr ⟨fits_of_table fewKinds namesFit, rfl⟩⟩

/-- A table with a range of Greek letters, and kinds whose names are no ASCII
text or no text at all. -/
def greekTable : Table where
  parts :=
    { stateCount := 2
      classCount := 2
      classes :=
        { ascii := Vector.replicate asciiCount otherClass
          ranges := #[⟨0x3B1, 0x3C9, 1⟩] }
      next := #[1, 0, 1, 1]
      tokenOf := #[1, KindId.absent]
      kindNames := #["", "Γράμμα"]
      start := 0
      error := 1 }
  valid := Parts.valid_of_defect?_eq_none (by decide)

theorem decode_eq_ok_iff_greek :
    greekTable.kindCount < UInt32.size ∧ (∀ name ∈ greekTable.parts.kindNames, NameFits name) ∧
      decode (encode greekTable ++ [0, 0xFF]) = .ok greekTable ∧
      decode (encode greekTable).dropLast ≠ .ok greekTable := by
  have fewKinds : greekTable.kindCount < UInt32.size := by decide
  have namesFit : ∀ name ∈ greekTable.parts.kindNames, NameFits name := by
    change ∀ name ∈ greekTable.parts.kindNames, (Text.utf8 name).length < UInt32.size
    decide +kernel
  have decodes := decode_eq_ok_iff fewKinds namesFit
  refine ⟨fewKinds, namesFit, ?_, ?_⟩
  · exact (decodes _).mpr (List.prefix_append _ _)
  · rw [Ne, decodes]
    decide +kernel

end Binary

end MaximalMunch
