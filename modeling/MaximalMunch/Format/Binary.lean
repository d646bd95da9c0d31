import MaximalMunch.Format.LittleEndian
import MaximalMunch.Table.Basic
import MaximalMunch.Text.Utf8

/-!
# The binary form of tables

A table file consists of sections without any framing.  Six counts in the
header decide where the later sections end:

* eight magic bytes;
* the numbers of states and classes, the initial state, the error state, and
  the numbers of class ranges and kinds, each 32 bits wide;
* the classes of the ASCII characters, each 16 bits wide;
* the class ranges: two code points of 32 bits and a class of 16 bits;
* the transition matrix in row-major order, each target 32 bits wide;
* the kinds that the states accept, each 32 bits wide;
* the kind names: the length of 32 bits, then UTF-8.

All words are little-endian.  A reader ignores what follows the last section.
-/

namespace MaximalMunch

namespace Binary

/-- The bytes that every table file begins with. -/
def magic : List UInt8 :=
  Text.utf8 "SCNTBL01"

def encodeRange (range : ClassRange) : List UInt8 :=
  LittleEndian.bytes32 range.lo ++ LittleEndian.bytes32 range.hi ++
    LittleEndian.bytes16 range.cls

def encodeName (name : String) : List UInt8 :=
  let text := Text.utf8 name
  LittleEndian.bytes32 (UInt32.ofNat text.length) ++ text

def encodeSection (parts : Parts) : Section → List UInt8
  | .magic => magic
  | .header =>
      [parts.stateCount, parts.classCount, parts.start, parts.error,
        UInt32.ofNat parts.classes.ranges.size,
        UInt32.ofNat parts.kindNames.size].flatMap LittleEndian.bytes32
  | .asciiClasses => parts.classes.ascii.toList.flatMap LittleEndian.bytes16
  | .classRanges => parts.classes.ranges.toList.flatMap encodeRange
  | .transitionMatrix => parts.next.toList.flatMap LittleEndian.bytes32
  | .tokenMap => parts.tokenOf.toList.flatMap LittleEndian.bytes32
  | .kindNames => parts.kindNames.toList.flatMap encodeName

/-- All sections in the order of a file. -/
def sections : List Section :=
  [.magic, .header, .asciiClasses, .classRanges, .transitionMatrix, .tokenMap, .kindNames]

def encode (table : Table) : List UInt8 :=
  sections.flatMap (encodeSection table.parts)

/-- A reader takes bytes from the front and leaves the rest, or finds a defect. -/
abbrev Reader (α : Type) := StateT (List UInt8) (Except Defect) α

def readBytes (place : Section) (count : Nat) : Reader (List UInt8) := fun bytes =>
  let (front, rest) := bytes.splitAt count
  if front.length = count then .ok (front, rest) else .error (.truncated place)

def readWord16 (place : Section) : Reader UInt16
  | b₀ :: b₁ :: rest => .ok (LittleEndian.word16 b₀ b₁, rest)
  | _ => .error (.truncated place)

def readWord32 (place : Section) : Reader UInt32
  | b₀ :: b₁ :: b₂ :: b₃ :: rest => .ok (LittleEndian.word32 b₀ b₁ b₂ b₃, rest)
  | _ => .error (.truncated place)

/-- Read `count` more values behind those already read.  The reader of a value
is told the position of the value. -/
def readMany {α : Type} (read : Nat → Reader α) :
    Nat → Array α → List UInt8 → Except Defect (Array α × List UInt8)
  | 0, values, bytes => .ok (values, bytes)
  | count + 1, values, bytes =>
      match read values.size bytes with
      | .error defect => .error defect
      | .ok (value, rest) => readMany read count (values.push value) rest

def readArray {α : Type} (read : Nat → Reader α) (count : Nat) : Reader (Array α) :=
  readMany read count #[]

def readRange : Reader ClassRange := do
  let lo ← readWord32 .classRanges
  let hi ← readWord32 .classRanges
  let cls ← readWord16 .classRanges
  return ⟨lo, hi, cls⟩

def readName (index : Nat) : Reader String := do
  let length ← readWord32 .kindNames
  let text ← readBytes .kindNames length.toNat
  match Text.ofUtf8? text with
  | some name => return name
  | none => throw (.badKindName index)

def readParts : Reader Parts := do
  let found ← readBytes .magic magic.length
  if found ≠ magic then
    throw .badMagic
  let stateCount ← readWord32 .header
  let classCount ← readWord32 .header
  let start ← readWord32 .header
  let error ← readWord32 .header
  let rangeCount ← readWord32 .header
  let kindCount ← readWord32 .header
  let ascii ← readArray (fun _ => readWord16 .asciiClasses) asciiCount
  let ranges ← readArray (fun _ => readRange) rangeCount.toNat
  let next ← readArray (fun _ => readWord32 .transitionMatrix)
    (stateCount.toNat * classCount.toNat)
  let tokenOf ← readArray (fun _ => readWord32 .tokenMap) stateCount.toNat
  let kindNames ← readArray readName kindCount.toNat
  return {
    stateCount := stateCount
    classCount := classCount
    classes := {
      ascii := Vector.ofFn fun point => ascii.getD point.val otherClass
      ranges := ranges }
    next := next
    tokenOf := tokenOf
    kindNames := kindNames
    start := start
    error := error }

/-- The table that the bytes begin with. -/
def decode (bytes : List UInt8) : Except Defect Table :=
  match readParts bytes with
  | .error defect => .error defect
  | .ok (parts, _) => Table.ofParts parts

end Binary

end MaximalMunch
