/-!
# Byte offsets in text

Token boundaries are byte offsets into the UTF-8 form of a text, while the
automaton reads one character at a time.  This file measures a list of
characters in bytes and cuts it at byte offsets.  A cut is possible only where
a character starts or the text ends, so every cut is an `Option`.
-/

namespace MaximalMunch

namespace Text

/-- Number of bytes that the characters occupy in UTF-8. -/
def byteLength : List Char → Nat
  | [] => 0
  | c :: rest => c.utf8Size + byteLength rest

/-- The characters before and after byte offset `count`, or `none` when that
offset lies inside a character or past the end. -/
def splitBytes? : Nat → List Char → Option (List Char × List Char)
  | 0, text => some ([], text)
  | _ + 1, [] => none
  | count + 1, c :: rest =>
      if c.utf8Size ≤ count + 1 then
        (splitBytes? (count + 1 - c.utf8Size) rest).map
          fun (before, after) => (c :: before, after)
      else
        none

def dropBytes? : Nat → List Char → Option (List Char)
  | 0, text => some text
  | _ + 1, [] => none
  | count + 1, c :: rest =>
      if c.utf8Size ≤ count + 1 then
        dropBytes? (count + 1 - c.utf8Size) rest
      else
        none

/-- The characters between two byte offsets, when both are boundaries and in
order. -/
def slice? (start stop : Nat) (text : List Char) : Option (List Char) :=
  if start ≤ stop then
    (dropBytes? start text).bind fun rest =>
      (splitBytes? (stop - start) rest).map Prod.fst
  else
    none

/-- The longest leading run of characters that fits into `room` bytes. -/
def fitting : Nat → List Char → List Char
  | _, [] => []
  | room, c :: rest =>
      if c.utf8Size ≤ room then
        c :: fitting (room - c.utf8Size) rest
      else
        []

/-- Whether a byte offset is a cut: a character starts there, or the text
ends. -/
def isCut (text : List Char) (offset : Nat) : Bool :=
  (dropBytes? offset text).isSome

/-- The first cut that is met on the way down from a byte offset, one byte at a
time.  There is no way on below offset `0`. -/
def cutBelow? (text : List Char) : Nat → Option Nat
  | 0 => if isCut text 0 then some 0 else none
  | offset + 1 =>
      if isCut text (offset + 1) then some (offset + 1) else cutBelow? text offset

@[simp]
theorem byteLength_nil : byteLength [] = 0 :=
  rfl

@[simp]
theorem byteLength_cons (c : Char) (rest : List Char) :
    byteLength (c :: rest) = c.utf8Size + byteLength rest :=
  rfl

@[simp]
theorem byteLength_append (before after : List Char) :
    byteLength (before ++ after) = byteLength before + byteLength after := by
  induction before with
  | nil => simp
  | cons c rest ih => simp [ih, Nat.add_assoc]

/-- Dropping bytes keeps the second half of a split. -/
theorem dropBytes?_eq_map_splitBytes? (count : Nat) (text : List Char) :
    dropBytes? count text = (splitBytes? count text).map Prod.snd := by
  induction text generalizing count with
  | nil => cases count <;> rfl
  | cons c rest ih =>
      cases count with
      | zero => rfl
      | succ count =>
          simp only [dropBytes?, splitBytes?]
          split
          · simp [ih, Function.comp_def]
          · rfl

end Text

end MaximalMunch
