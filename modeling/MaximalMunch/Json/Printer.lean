import MaximalMunch.Json.Value
import MaximalMunch.Json.Lexeme

/-!
# Writing JSON documents

A document is written in one of two layouts: without any blanks, or with one
line for each element and member.  Both differ only in blanks between the
lexemes.
-/

namespace MaximalMunch

namespace Json

/-- Which blanks stand between lexemes. -/
structure Layout where
  /-- What comes before an element at a given depth, and before the end of what
  holds it. -/
  lineBreak : Nat → List UInt8
  gap : List UInt8

namespace Layout

def compact : Layout where
  lineBreak _ := []
  gap := []

/-- Every element on a line of its own, indented by two spaces for each
level. -/
def pretty : Layout where
  lineBreak depth := byte '\n' :: List.replicate (2 * depth) (byte ' ')
  gap := [byte ' ']

end Layout

def naturalBytes (value : Nat) : List UInt8 :=
  (Nat.toDigits 10 value).map byte

def hexByte (value : Nat) : UInt8 :=
  byte (Nat.digitChar value)

/-- A byte of text as it stands in a string. -/
def escapeByte (b : UInt8) : List UInt8 :=
  if b = byte '\x22' ∨ b = byte '\\' then [byte '\\', b]
  else if b = 0x08 then [byte '\\', byte 'b']
  else if b = 0x0C then [byte '\\', byte 'f']
  else if b = 0x0A then [byte '\\', byte 'n']
  else if b = 0x0D then [byte '\\', byte 'r']
  else if b = 0x09 then [byte '\\', byte 't']
  else if b < 0x20 then
    [byte '\\', byte 'u', byte '0', byte '0', hexByte (b.toNat / 16), hexByte (b.toNat % 16)]
  else [b]

def textBytes (text : String) : List UInt8 :=
  byte '\x22' :: (Text.utf8 text).flatMap escapeByte ++ [byte '\x22']

mutual

/-- The bytes of a value at a given depth.  A value that no table file contains
is written as a truth value. -/
def render (layout : Layout) (depth : Nat) : Json → List UInt8
  | .null => [byte 'n', byte 'u', byte 'l', byte 'l']
  | .natural value => naturalBytes value
  | .text value => textBytes value
  | .array [] => [byte '[', byte ']']
  | .array (item :: items) =>
      byte '[' :: layout.lineBreak (depth + 1) ++ render layout (depth + 1) item ++
        renderItems layout depth items
  | .object [] => [byte '\x7b', byte '\x7d']
  | .object ((key, value) :: members) =>
      byte '\x7b' :: layout.lineBreak (depth + 1) ++ textBytes key ++
        byte ':' :: layout.gap ++ render layout (depth + 1) value ++
        renderMembers layout depth members
  | .other => [byte 't', byte 'r', byte 'u', byte 'e']

/-- The further elements of an array at a given depth, and its end. -/
def renderItems (layout : Layout) (depth : Nat) : List Json → List UInt8
  | [] => layout.lineBreak depth ++ [byte ']']
  | item :: items =>
      byte ',' :: layout.lineBreak (depth + 1) ++ render layout (depth + 1) item ++
        renderItems layout depth items

/-- The further members of an object at a given depth, and its end. -/
def renderMembers (layout : Layout) (depth : Nat) : List (String × Json) → List UInt8
  | [] => layout.lineBreak depth ++ [byte '\x7d']
  | (key, value) :: members =>
      byte ',' :: layout.lineBreak (depth + 1) ++ textBytes key ++
        byte ':' :: layout.gap ++ render layout (depth + 1) value ++
        renderMembers layout depth members

end

def print (layout : Layout) (value : Json) : List UInt8 :=
  render layout 0 value

end Json

end MaximalMunch
