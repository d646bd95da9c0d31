import MaximalMunch.Proofs.BinaryForm

/-!
# Files that break off

A file that breaks off is never taken for another one, nor is anything else found
wrong with it: the reader reports the section in which bytes are missing.  To say
which section that is, each byte of a file is marked with the section it lies in.
A reader demands its marked bytes if, wherever they break off, it reports the mark
of the first missing one, and what demands its bytes can be put one behind the
other.
-/

namespace MaximalMunch

namespace Binary

/-- Bytes that all lie in one section. -/
def marked (place : Section) (bytes : List UInt8) : List (UInt8 × Section) :=
  bytes.map fun byte => (byte, place)

/-- The bytes of a file, each with the section it lies in. -/
def layout (parts : Parts) : List (UInt8 × Section) :=
  sections.flatMap fun place => marked place (encodeSection parts place)

@[simp]
theorem map_fst_marked (place : Section) (bytes : List UInt8) :
    (marked place bytes).map Prod.fst = bytes := by
  simp [marked, Function.comp_def]

@[simp]
theorem marked_append (place : Section) (front back : List UInt8) :
    marked place (front ++ back) = marked place front ++ marked place back :=
  List.map_append

theorem map_fst_layout (table : Table) : (layout table.parts).map Prod.fst = encode table := by
  simp [layout, encode, List.map_flatMap]

/-- Wherever the bytes break off, the reader reports the section of the first byte
that is missing. -/
def Demands {α : Type} (read : Reader α) (bytes : List (UInt8 × Section)) : Prop :=
  ∀ before byte place after, bytes = before ++ (byte, place) :: after →
    read (before.map Prod.fst) = .error (.truncated place)

/-- The reader undoes writing, and demands all that is written, in one section. -/
structure Fetches {α : Type} (read : Reader α) (place : Section) (write : α → List UInt8)
    (fits : α → Prop) : Prop where
  undoes : Undoes read write fits
  demands : ∀ value, fits value → Demands read (marked place (write value))

section Readers

variable {α β : Type} {read : Reader α} {place : Section} {write : α → List UInt8}
  {fits : α → Prop}

theorem demands_nil (read : Reader α) : Demands read [] := by
  intro before byte place after cut
  simp at cut

theorem demands_marked {bytes : List UInt8}
    (reports : ∀ before byte after, bytes = before ++ byte :: after →
      read before = .error (.truncated place)) : Demands read (marked place bytes) := by
  intro before byte missing after cut
  obtain ⟨front, back, rfl, rfl, backEq⟩ := List.map_eq_append_iff.mp cut
  obtain ⟨first, rest, rfl, firstEq, rfl⟩ := List.map_eq_cons_iff.mp backEq
  obtain ⟨rfl, rfl⟩ := Prod.mk.inj firstEq
  rw [← marked, map_fst_marked]
  exact reports front _ rest rfl

theorem bind_eq_of_eq_ok {next : α → Reader β} {value : α} {bytes rest : List UInt8}
    (reads : read bytes = .ok (value, rest)) : (read >>= next) bytes = next value rest := by
  change (do let (first, middle) ← read bytes; next first middle) = _
  rw [reads]
  rfl

theorem bind_eq_error {next : α → Reader β} {defect : Defect} {bytes : List UInt8}
    (fails : read bytes = .error defect) : (read >>= next) bytes = .error defect := by
  change (do let (first, middle) ← read bytes; next first middle) = _
  rw [fails]
  rfl

/-- Either the bytes of the first reader break off, or it takes them all and leaves
those of the second reader, which break off. -/
theorem Fetches.bind (fetches : Fetches read place write fits) {value : α}
    (valueFits : fits value) {next : α → Reader β} {back : List (UInt8 × Section)}
    (demands : Demands (next value) back) :
    Demands (read >>= next) (marked place (write value) ++ back) := by
  intro before byte missing after cut
  rcases List.append_eq_append_iff.mp cut with
    ⟨behind, rfl, backEq⟩ | ⟨behind, frontEq, restEq⟩
  · have reads : read (write value ++ behind.map Prod.fst) =
        .ok (value, behind.map Prod.fst) :=
      (fetches.undoes _ _ _).mpr ⟨valueFits, rfl⟩
    rw [List.map_append, map_fst_marked, bind_eq_of_eq_ok reads]
    exact demands behind byte missing after backEq
  · cases behind with
    | nil =>
        rw [List.append_nil] at frontEq
        have reads : read (write value ++ []) = .ok (value, []) :=
          (fetches.undoes _ _ _).mpr ⟨valueFits, rfl⟩
        rw [← frontEq, map_fst_marked, ← List.append_nil (write value), bind_eq_of_eq_ok reads]
        exact demands [] byte missing after restEq.symm
    | cons first behind =>
        obtain ⟨rfl, rfl⟩ := List.cons_eq_cons.mp restEq
        exact bind_eq_error (fetches.demands value valueFits before byte missing behind frontEq)

theorem readBytes_fetches (place : Section) (count : Nat) :
    Fetches (readBytes place count) place (fun bytes => bytes) fun bytes => bytes.length = count where
  undoes := fun _ _ _ => readBytes_eq_ok_iff
  demands := by
    rintro _ rfl
    refine demands_marked fun before byte after cut => ?_
    rw [cut, readBytes, List.splitAt_eq]
    refine if_neg ?_
    simp

theorem readWord16_fetches (place : Section) :
    Fetches (readWord16 place) place LittleEndian.bytes16 fun _ => True where
  undoes := readWord16_undoes place
  demands := by
    intro word _
    refine demands_marked fun before byte after cut => ?_
    have lengthEq := congrArg List.length cut
    rcases before with _ | ⟨b₀, _ | ⟨b₁, before⟩⟩
    case cons.cons => simp at lengthEq
    all_goals rfl

theorem readWord32_fetches (place : Section) :
    Fetches (readWord32 place) place LittleEndian.bytes32 fun _ => True where
  undoes := readWord32_undoes place
  demands := by
    intro word _
    refine demands_marked fun before byte after cut => ?_
    have lengthEq := congrArg List.length cut
    rcases before with _ | ⟨b₀, _ | ⟨b₁, _ | ⟨b₂, _ | ⟨b₃, before⟩⟩⟩⟩
    case cons.cons.cons.cons => simp at lengthEq
    all_goals rfl

theorem readRange_fetches : Fetches readRange .classRanges encodeRange fun _ => True where
  undoes := readRange_undoes
  demands := by
    intro range _
    rw [encodeRange, List.append_assoc, marked_append, marked_append,
      ← List.append_nil (marked _ (LittleEndian.bytes16 range.cls))]
    exact (readWord32_fetches _).bind trivial <| (readWord32_fetches _).bind trivial <|
      (readWord16_fetches _).bind trivial (demands_nil _)

theorem readName_fetches (index : Nat) :
    Fetches (readName index) .kindNames encodeName NameFits where
  undoes := readName_undoes index
  demands := by
    intro name nameFits
    rw [encodeName, marked_append, ← List.append_nil (marked _ (Text.utf8 name))]
    refine (readWord32_fetches _).bind trivial <| (readBytes_fetches _ _).bind ?_ (demands_nil _)
    exact (UInt32.toNat_ofNat_of_lt' nameFits).symm

theorem readMany_succ (read : Nat → Reader α) (count : Nat) (earlier : Array α) :
    readMany read (count + 1) earlier =
      ((read earlier.size >>= fun value => readMany read count (earlier.push value)) :
        Reader (Array α)) := by
  funext bytes
  rw [readMany]
  cases reads : read earlier.size bytes with
  | error defect => exact (bind_eq_error reads).symm
  | ok answer =>
      obtain ⟨value, rest⟩ := answer
      rw [bind_eq_of_eq_ok reads]

theorem readMany_demands {read : Nat → Reader α}
    (fetches : ∀ index, Fetches (read index) place write fits) {values : List α}
    (fit : ∀ value ∈ values, fits value) (earlier : Array α) :
    Demands (readMany read values.length earlier) (marked place (values.flatMap write)) := by
  induction values generalizing earlier with
  | nil => exact demands_nil _
  | cons value values ih =>
      obtain ⟨valueFits, fit⟩ := List.forall_mem_cons.mp fit
      rw [List.length_cons, readMany_succ, List.flatMap_cons, marked_append]
      exact (fetches _).bind valueFits (ih fit _)

theorem readArray_fetches {read : Nat → Reader α}
    (fetches : ∀ index, Fetches (read index) place write fits) (count : Nat) :
    Fetches (readArray read count) place (fun values => values.toList.flatMap write)
      fun values => values.size = count ∧ ∀ value ∈ values, fits value where
  undoes := readArray_undoes (fun index => (fetches index).undoes) count
  demands := by
    rintro values ⟨rfl, fit⟩
    exact readMany_demands fetches (by simpa using fit) #[]

end Readers

theorem layout_append (parts : Parts) :
    layout parts =
      marked .magic magic ++ (marked .header (LittleEndian.bytes32 parts.stateCount) ++
        (marked .header (LittleEndian.bytes32 parts.classCount) ++
        (marked .header (LittleEndian.bytes32 parts.start) ++
        (marked .header (LittleEndian.bytes32 parts.error) ++
        (marked .header (LittleEndian.bytes32 (UInt32.ofNat parts.classes.ranges.size)) ++
        (marked .header (LittleEndian.bytes32 (UInt32.ofNat parts.kindNames.size)) ++
        (marked .asciiClasses (parts.classes.ascii.toList.flatMap LittleEndian.bytes16) ++
        (marked .classRanges (parts.classes.ranges.toList.flatMap encodeRange) ++
        (marked .transitionMatrix (parts.next.toList.flatMap LittleEndian.bytes32) ++
        (marked .tokenMap (parts.tokenOf.toList.flatMap LittleEndian.bytes32) ++
        (marked .kindNames (parts.kindNames.toList.flatMap encodeName) ++ []))))))))))) := by
  simp [layout, sections, encodeSection]

theorem readParts_demands {parts : Parts} (fits : Fits parts) :
    Demands readParts (layout parts) := by
  have rangesSize := (UInt32.toNat_ofNat_of_lt' fits.ranges_size_lt).symm
  have kindNamesSize := (UInt32.toNat_ofNat_of_lt' fits.kindNames_size_lt).symm
  have word := readWord32_fetches .header
  have ascii := readArray_fetches (fun _ => readWord16_fetches .asciiClasses) asciiCount
  have asciiFits : parts.classes.ascii.toArray.size = asciiCount ∧
      ∀ cls ∈ parts.classes.ascii.toArray, True := ⟨by simp, by simp⟩
  have ranges := readArray_fetches (fun _ => readRange_fetches)
    (UInt32.ofNat parts.classes.ranges.size).toNat
  have next := readArray_fetches (fun _ => readWord32_fetches .transitionMatrix)
    (parts.stateCount.toNat * parts.classCount.toNat)
  have tokenOf := readArray_fetches (fun _ => readWord32_fetches .tokenMap) parts.stateCount.toNat
  have kindNames := readArray_fetches readName_fetches
    (UInt32.ofNat parts.kindNames.size).toNat
  rw [layout_append, readParts]
  refine (readBytes_fetches .magic magic.length).bind rfl ?_
  rw [if_neg (Decidable.not_not.mpr rfl)]
  refine word.bind trivial <| word.bind trivial <| word.bind trivial <| word.bind trivial <|
    word.bind trivial <| word.bind trivial <|
    ascii.bind asciiFits <|
    ranges.bind ⟨rangesSize, by simp⟩ <| next.bind ⟨fits.next_size, by simp⟩ <|
    tokenOf.bind ⟨fits.tokenOf_size, by simp⟩ <|
    kindNames.bind ⟨kindNamesSize, fits.names_fit⟩ (demands_nil _)

variable {table : Table}

/-- A file that breaks off is refused, and the section of the first missing byte is
reported. -/
theorem decode_eq_truncated (fewKinds : table.kindCount < UInt32.size)
    (namesFit : ∀ name ∈ table.parts.kindNames, NameFits name) {bytes : List UInt8}
    (isPrefix : bytes <+: encode table) (incomplete : bytes ≠ encode table) :
    ∃ byte place, (layout table.parts)[bytes.length]? = some (byte, place) ∧
      decode bytes = .error (.truncated place) := by
  obtain ⟨rest, whole⟩ := isPrefix
  rw [← map_fst_layout] at whole
  obtain ⟨before, behind, layoutEq, rfl, restEq⟩ := List.map_eq_append_iff.mp whole.symm
  cases behind with
  | nil =>
      refine absurd ?_ incomplete
      rw [← map_fst_layout, layoutEq, List.append_nil]
  | cons missing after =>
      obtain ⟨byte, place⟩ := missing
      refine ⟨byte, place, by simp [layoutEq], ?_⟩
      have reported : readParts (before.map Prod.fst) = .error (.truncated place) :=
        readParts_demands (fits_of_table fewKinds namesFit) before byte place after layoutEq
      rw [decode, reported]

example : sections.map Section.label =
    ["magic", "header", "ascii classes", "class ranges", "transition matrix", "token map",
      "kind names"] :=
  rfl

/-- The bytes break off inside the last letter of the last name. -/
theorem decode_eq_truncated_greek :
    greekTable.kindCount < UInt32.size ∧ (∀ name ∈ greekTable.parts.kindNames, NameFits name) ∧
      (encode greekTable).dropLast <+: encode greekTable ∧
      (encode greekTable).dropLast ≠ encode greekTable ∧
      decode (encode greekTable).dropLast = .error (.truncated .kindNames) := by
  have fewKinds : greekTable.kindCount < UInt32.size := by decide
  have namesFit : ∀ name ∈ greekTable.parts.kindNames, NameFits name := by
    change ∀ name ∈ greekTable.parts.kindNames, (Text.utf8 name).length < UInt32.size
    decide +kernel
  have isPrefix := List.dropLast_prefix (encode greekTable)
  have incomplete : (encode greekTable).dropLast ≠ encode greekTable := by decide +kernel
  obtain ⟨byte, place, missing, refused⟩ :=
    decode_eq_truncated fewKinds namesFit isPrefix incomplete
  have lastPlace : ((layout greekTable.parts)[(encode greekTable).dropLast.length]?).map Prod.snd =
      some .kindNames := by
    decide +kernel
  rw [missing, Option.map_some, Option.some.injEq] at lastPlace
  exact ⟨fewKinds, namesFit, isPrefix, incomplete, lastPlace ▸ refused⟩

end Binary

end MaximalMunch
