import MaximalMunch.Format.JsonForm
import MaximalMunch.Proofs.JsonDocument
import MaximalMunch.Proofs.Validation

/-!
# Reading undoes writing in the JSON form

Every field of a table is found again in the object that is written for the
table, whatever the layout of the document.
-/

namespace MaximalMunch

namespace JsonForm

theorem word16?_ofWord16 (word : UInt16) : (ofWord16 word).word16? = some word := by
  have bound : word.toNat < UInt16.size := word.toNat_lt
  simp [ofWord16, Json.word16?, Json.below?, bound]

theorem word32?_ofWord32 (word : UInt32) : (ofWord32 word).word32? = some word := by
  have bound : word.toNat < UInt32.size := word.toNat_lt
  simp [ofWord32, Json.word32?, Json.below?, bound]

theorem toRange?_ofRange (range : ClassRange) : toRange? (ofRange range) = some range := by
  simp [ofRange, toRange?, Json.member?, rangeOf?, word16?_ofWord16, word32?_ofWord32]

theorem toKind?_ofKind (kind : KindId) : toKind? (ofKind kind) = some kind := by
  rw [ofKind]
  split
  case isTrue absent => rw [toKind?, absent]
  case isFalse => exact word32?_ofWord32 kind

theorem listOf?_array_map {α : Type} {read : Json → Option α} {write : α → Json}
    (undoes : ∀ value, read (write value) = some value) (values : List α) :
    Json.listOf? read (.array (values.map write)) = some values := by
  rw [Json.listOf?, Json.items?, Option.bind_some]
  induction values with
  | nil => rfl
  | cons value values ih => simp [undoes, ih]

theorem toAscii?_array_map (classes : Vector UInt16 asciiCount) :
    toAscii? (.array (classes.toList.map ofWord16)) = some classes := by
  simp only [toAscii?, listOf?_array_map word16?_ofWord16, bind, Option.bind_some,
    Vector.length_toList, dite_true, pure]
  congr 1

theorem toParts?_ofParts (parts : Parts) : toParts? (ofParts parts) = some parts := by
  have text? : ∀ name, (Json.text name).text? = some name := fun _ => rfl
  simp [ofParts, toParts?, Json.member?, Json.memberOr?, partsOf?, word32?_ofWord32,
    toAscii?_array_map, listOf?_array_map word32?_ofWord32, listOf?_array_map toRange?_ofRange,
    listOf?_array_map toKind?_ofKind, listOf?_array_map text?]

theorem ofWord16_plain (word : UInt16) : (ofWord16 word).Plain :=
  .natural (Nat.lt_of_lt_of_le word.toNat_lt (by decide))

theorem ofWord32_plain (word : UInt32) : (ofWord32 word).Plain :=
  .natural (Nat.lt_of_lt_of_le word.toNat_lt (by decide))

theorem ofRange_plain (range : ClassRange) : (ofRange range).Plain := by
  apply Json.Plain.object
  simp [ofWord16_plain, ofWord32_plain]

theorem ofKind_plain (kind : KindId) : (ofKind kind).Plain := by
  rw [ofKind]
  split
  · exact .null
  · exact ofWord32_plain kind

theorem array_map_plain {α : Type} {write : α → Json} (each : ∀ value, (write value).Plain)
    (values : List α) : (Json.array (values.map write)).Plain := by
  apply Json.Plain.array
  simp [each]

theorem ofParts_plain (parts : Parts) : (ofParts parts).Plain := by
  apply Json.Plain.object
  simp [ofWord32_plain, array_map_plain ofWord16_plain, array_map_plain ofWord32_plain,
    array_map_plain ofRange_plain, array_map_plain ofKind_plain, array_map_plain Json.Plain.text]

theorem decode_encode_of_blank {layout : Json.Layout} (blank : layout.Blank) (table : Table) :
    decode (encode layout table) = .ok table := by
  have read : readParts? (encode layout table) = some table.parts := by
    rw [readParts?, encode, Json.parse?_print blank (ofParts_plain table.parts),
      Option.bind_some, toParts?_ofParts]
  simp only [decode, read, Table.ofParts_eq_ok_iff.mpr rfl]
  rfl

/-- A table is read back from both of its documents, the indented one and the
compact one. -/
theorem decode_encode (table : Table) :
    decode (encode .pretty table) = .ok table ∧ decode (encode .compact table) = .ok table :=
  ⟨decode_encode_of_blank Json.Layout.pretty_blank table,
    decode_encode_of_blank Json.Layout.compact_blank table⟩

end JsonForm

end MaximalMunch
