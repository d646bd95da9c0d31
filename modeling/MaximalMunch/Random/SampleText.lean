import MaximalMunch.Random.Source
import MaximalMunch.Text.Offset

/-!
# Random sample texts

Random texts for the demonstration grammar.  Most pieces are well-formed tokens;
some force a scanner to go back, such as a decimal point without digits behind it
or a comment without an end, and some are characters that no rule matches.
-/

namespace MaximalMunch

namespace SampleText

open RandomSource

variable {σ : Type} [RandomSource σ]

/-- Odds of 2^64 for a chance of three in five. -/
def threeInFive : UInt64 := 11068046444225730560

def seventeenInTwenty : UInt64 := 15679732462653118464

def oneInFive : UInt64 := 3689348814741910528

def nineInTen : UInt64 := 16602069666338596864

def oneInFour : UInt64 := 4611686018427387904

/-- Draw one of the characters of a text; a blank if there is none. -/
def charOf (alphabet : String) : StateM σ (List Char) :=
  match alphabet.toList with
  | [] => return [' ']
  | first :: others => do return [← pick first others]

def letter : StateM σ (List Char) :=
  charOf "abcdefghijklmnopqrstuvwxyzABCDEFGHIJKLMNOPQRSTUVWXYZ_"

def digit : StateM σ (List Char) :=
  charOf "0123456789"

/-- A letter, then up to eleven letters and digits. -/
def identifier : StateM σ (List Char) := do
  let length ← between 1 12
  let first ← letter
  let others ← repeated (do if ← holds threeInFive then letter else digit) (length - 1)
  return first ++ others

def integer : StateM σ (List Char) := do
  repeated digit (← between 1 8)

/-- Digits with a decimal point, behind which there may be nothing. -/
def decimal : StateM σ (List Char) := do
  let whole ← integer
  let fraction ← if ← holds seventeenInTwenty then integer else pure []
  return whole ++ ['.'] ++ fraction

/-- One to eight blanks and line ends. -/
def layout : StateM σ (List Char) := do
  repeated (charOf " \t\r\n") (← between 1 8)

/-- A comment up to the end of the line. -/
def lineComment : StateM σ (List Char) := do
  let length ← between 0 40
  let body ← repeated (charOf
    "abcdefghijklmnopqrstuvwxyzABCDEFGHIJKLMNOPQRSTUVWXYZ0123456789 +-*/&|![]\x7b\x7d()<>=*§λ") length
  return ['/', '/'] ++ body ++ ['\n']

def commentChunk : StateM σ (List Char) := do
  let length ← between 1 8
  let body ← repeated (charOf
    "abcdefghijklmnopqrstuvwxyzABCDEFGHIJKLMNOPQRSTUVWXYZ0123456789 +-![]\x7b\x7d()<>=&|") length
  let star ← holds oneInFive
  let lineEnd ← holds oneInFive
  return body ++ (if star then ['*'] else []) ++ (if lineEnd then ['\n'] else [])

/-- A block comment, which may lack its end. -/
def blockComment : StateM σ (List Char) := do
  let chunks ← between 0 15
  let body ← repeated commentChunk chunks
  let closed ← holds nineInTen
  return ['/', '*'] ++ body ++ (if closed then ['*', '/'] else [])

/-- The operators of sample texts, behind the first one. -/
def furtherOperators : List String :=
  [")", "+", "++", "+=", "-", "--", "->", "*", "=", "/", "/=", "!", "!=", "[", "]",
    "\x7b", "\x7d", "<", "<=", "<<", ">", ">=", ">>", "==", "&", "&&", "|", "||", ";", ",", "."]

/-- An operator, sometimes with a blank behind it. -/
def operator : StateM σ (List Char) := do
  let symbol ← pick "(" furtherOperators
  let spaced ← holds oneInFour
  return symbol.toList ++ (if spaced then [' '] else [])

/-- A character that does not fit in, most of them unknown to the grammar. -/
def noise : StateM σ (List Char) := do
  return [← pick '§' ['@', '#', '$', '\x60', '\x27', '\x22', '€', '\x00', 'λ', 'é']]

def piece : StateM σ (List Char) := do
  let roll ← upTo 99
  if roll.val ≤ 21 then identifier
  else if roll.val ≤ 33 then integer
  else if roll.val ≤ 41 then decimal
  else if roll.val ≤ 56 then layout
  else if roll.val ≤ 61 then lineComment
  else if roll.val ≤ 67 then blockComment
  else if roll.val ≤ 91 then operator
  else noise

/-- What a roll stands for.  Only rolls below a hundred stand for anything. -/
def pieceFor? (roll : Nat) : Option (StateM σ (List Char)) :=
  if roll ≤ 21 then some identifier
  else if 22 ≤ roll ∧ roll ≤ 33 then some integer
  else if 34 ≤ roll ∧ roll ≤ 41 then some decimal
  else if 42 ≤ roll ∧ roll ≤ 56 then some layout
  else if 57 ≤ roll ∧ roll ≤ 61 then some lineComment
  else if 62 ≤ roll ∧ roll ≤ 67 then some blockComment
  else if 68 ≤ roll ∧ roll ≤ 91 then some operator
  else if 92 ≤ roll ∧ roll ≤ 99 then some noise
  else none

/-- `piece` with the roll checked. -/
def piece? (source : σ) : Option (List Char × σ) :=
  let (roll, source) := upTo 99 source
  (pieceFor? roll.val).map fun computation => computation source

/-- Pieces that together take at least `missing` bytes, and none of which could
be left out at the end.  Every piece takes at least a byte. -/
def chars (missing : Nat) : StateM σ (List Char) := fun source =>
  match missing with
  | 0 => ([], source)
  | rest + 1 =>
      let (front, source) := piece source
      let (back, source) := chars (rest - (Text.byteLength front - 1)) source
      (front ++ back, source)
termination_by missing
decreasing_by omega

def generate (length : Nat) : StateM σ String := do
  return String.ofList (← chars length)

/-- The largest number of bytes that can be set aside for one text. -/
abbrev maxRoom : Nat := 0x7FFFFFFFFFFFFFFF

/-- Whether room can be set aside for a text of at least `length` bytes.  An
eighth is added for what the last piece takes beyond that. -/
def fits (length : Nat) : Bool :=
  length + length / 8 ≤ maxRoom

/-- A text of at least `length` bytes, if there can be room for it. -/
def generate? (length : Nat) : StateM σ (Option String) :=
  if fits length then
    return some (← generate length)
  else
    return none

end SampleText

end MaximalMunch
