import MaximalMunch.Json.Printer
import MaximalMunch.Json.Reader
import MaximalMunch.Table.Basic

/-!
# The JSON form of tables

A table is an object with nine members.  A reader takes them in any order, and
ignores members it does not know; the class ranges may be missing, which means
that there are none.  It also takes a bare array of the nine values in the order
in which they are written.  Class ranges are read in the same two ways.

A state that accepts nothing is written as `null`.
-/

namespace MaximalMunch

namespace JsonForm

def ofWord16 (word : UInt16) : Json :=
  .natural word.toNat

def ofWord32 (word : UInt32) : Json :=
  .natural word.toNat

def ofRange (range : ClassRange) : Json :=
  .object [("lo", ofWord32 range.lo), ("hi", ofWord32 range.hi), ("class", ofWord16 range.cls)]

def ofKind (kind : KindId) : Json :=
  if kind = KindId.absent then .null else ofWord32 kind

def ofParts (parts : Parts) : Json :=
  .object [
    ("n_states", ofWord32 parts.stateCount),
    ("n_classes", ofWord32 parts.classCount),
    ("ascii_class", .array (parts.classes.ascii.toList.map ofWord16)),
    ("class_ranges", .array (parts.classes.ranges.toList.map ofRange)),
    ("next", .array (parts.next.toList.map ofWord32)),
    ("token_of", .array (parts.tokenOf.toList.map ofKind)),
    ("kind_names", .array (parts.kindNames.toList.map .text)),
    ("start", ofWord32 parts.start),
    ("error", ofWord32 parts.error)]

def encode (layout : Json.Layout) (table : Table) : List UInt8 :=
  Json.print layout (ofParts table.parts)

def rangeOf? (lo hi cls : Json) : Option ClassRange := do
  return ⟨← lo.word32?, ← hi.word32?, ← cls.word16?⟩

def toRange? : Json → Option ClassRange
  | .object members => do
      rangeOf? (← Json.member? members "lo") (← Json.member? members "hi")
        (← Json.member? members "class")
  | .array [lo, hi, cls] => rangeOf? lo hi cls
  | _ => none

def toKind? : Json → Option KindId
  | .null => some KindId.absent
  | value => value.word32?

/-- Read exactly one class for each ASCII character. -/
def toAscii? (value : Json) : Option (Vector UInt16 asciiCount) := do
  let classes ← value.listOf? Json.word16?
  if complete : classes.length = asciiCount then
    return ⟨classes.toArray, by simpa using complete⟩
  else
    none

def partsOf? (stateCount classCount ascii ranges next tokenOf kindNames start error : Json) :
    Option Parts := do
  return {
    stateCount := ← stateCount.word32?
    classCount := ← classCount.word32?
    classes := {
      ascii := ← toAscii? ascii
      ranges := (← ranges.listOf? toRange?).toArray }
    next := (← next.listOf? Json.word32?).toArray
    tokenOf := (← tokenOf.listOf? toKind?).toArray
    kindNames := (← kindNames.listOf? Json.text?).toArray
    start := ← start.word32?
    error := ← error.word32? }

def toParts? : Json → Option Parts
  | .object members => do
      partsOf? (← Json.member? members "n_states") (← Json.member? members "n_classes")
        (← Json.member? members "ascii_class")
        (← Json.memberOr? (.array []) members "class_ranges")
        (← Json.member? members "next") (← Json.member? members "token_of")
        (← Json.member? members "kind_names") (← Json.member? members "start")
        (← Json.member? members "error")
  | .array [stateCount, classCount, ascii, ranges, next, tokenOf, kindNames, start, error] =>
      partsOf? stateCount classCount ascii ranges next tokenOf kindNames start error
  | _ => none

/-- A reason why a document is no table. -/
inductive DecodeError
  /-- It is not JSON, or not of the form of a table. -/
  | malformed
  | defective (defect : Defect)
  deriving DecidableEq, Repr

def readParts? (bytes : List UInt8) : Option Parts :=
  (Json.parse? bytes).bind toParts?

def decode (bytes : List UInt8) : Except DecodeError Table :=
  match readParts? bytes with
  | none => .error .malformed
  | some parts => (Table.ofParts parts).mapError .defective

end JsonForm

end MaximalMunch
