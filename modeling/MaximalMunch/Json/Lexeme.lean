import MaximalMunch.Text.Utf8

/-!
# Lexemes of JSON

A JSON document is a sequence of lexemes with blanks between them.  Lexemes are
read strictly: numbers follow the grammar of JSON, strings hold no control
characters and only the escapes of JSON.  A string may nevertheless fail to be
Unicode text, by stray bytes or by half a surrogate pair; its lexeme then
carries no text.
-/

namespace MaximalMunch

namespace Json

/-- The smallest meaningful unit of a JSON document. -/
inductive Lexeme
  | openArray
  | closeArray
  | openObject
  | closeObject
  | comma
  | colon
  | null
  | natural (value : Nat)
  | text (value : Option String)
  /-- A truth value, or a number with sign, fraction or exponent, or with too
  many digits. -/
  | other
  deriving DecidableEq, Repr

def byte (c : Char) : UInt8 :=
  UInt8.ofNat c.toNat

/-- Space, tab, line feed and carriage return may stand between lexemes. -/
def isBlank (b : UInt8) : Bool :=
  b == byte ' ' || b == byte '\t' || b == byte '\n' || b == byte '\r'

def isDigit (b : UInt8) : Bool :=
  byte '0' ≤ b && b ≤ byte '9'

def digitsValue (digits : List UInt8) : Nat :=
  digits.foldl (fun value digit => 10 * value + (digit.toNat - '0'.toNat)) 0

/-- Read digits, of which there must be at least one. -/
def digits? (bytes : List UInt8) : Option (List UInt8 × List UInt8) :=
  let digits := bytes.takeWhile isDigit
  if digits.isEmpty then none else some (digits, bytes.dropWhile isDigit)

/-- Read the digits of a whole number; a leading zero stands alone. -/
def wholeDigits? (bytes : List UInt8) : Option (List UInt8 × List UInt8) :=
  match bytes with
  | [] => none
  | b :: rest => if b = byte '0' then some ([b], rest) else digits? bytes

/-- Read a fraction, if one follows.  Answers whether it did. -/
def fraction? (bytes : List UInt8) : Option (Bool × List UInt8) :=
  match bytes with
  | [] => some (false, [])
  | b :: rest =>
      if b = byte '.' then
        (digits? rest).map fun (_, rest) => (true, rest)
      else
        some (false, bytes)

def skipSign (bytes : List UInt8) : List UInt8 :=
  match bytes with
  | [] => []
  | b :: rest => if b = byte '+' ∨ b = byte '-' then rest else bytes

/-- Read an exponent, if one follows.  Answers whether it did. -/
def exponent? (bytes : List UInt8) : Option (Bool × List UInt8) :=
  match bytes with
  | [] => some (false, [])
  | b :: rest =>
      if b = byte 'e' ∨ b = byte 'E' then
        (digits? (skipSign rest)).map fun (_, rest) => (true, rest)
      else
        some (false, bytes)

/-- Numbers with more digits than this are not told apart. -/
abbrev maxDigits : Nat := 20

/-- The lexeme of a number with the given whole part; `plain` says that nothing
follows it. -/
def numberLexeme (digits : List UInt8) (plain : Bool) : Lexeme :=
  if plain && digits.length ≤ maxDigits then .natural (digitsValue digits) else .other

def number? (bytes : List UInt8) : Option (Lexeme × List UInt8) := do
  let (digits, rest) ← wholeDigits? bytes
  let (hasFraction, rest) ← fraction? rest
  let (hasExponent, rest) ← exponent? rest
  return (numberLexeme digits (!hasFraction && !hasExponent), rest)

/-- What the body of a string is written with: bytes, and numbered UTF-16
units. -/
inductive Piece
  | byte (value : UInt8)
  | unit (value : Nat)
  deriving DecidableEq, Repr

/-- The byte that a one-letter escape stands for. -/
def simpleEscape? (letter : UInt8) : Option UInt8 :=
  if letter = byte '\x22' ∨ letter = byte '\\' ∨ letter = byte '/' then some letter
  else if letter = byte 'b' then some 0x08
  else if letter = byte 'f' then some 0x0C
  else if letter = byte 'n' then some 0x0A
  else if letter = byte 'r' then some 0x0D
  else if letter = byte 't' then some 0x09
  else none

def hexDigit? (b : UInt8) : Option Nat :=
  if byte '0' ≤ b ∧ b ≤ byte '9' then some (b.toNat - '0'.toNat)
  else if byte 'a' ≤ b ∧ b ≤ byte 'f' then some (b.toNat - 'a'.toNat + 10)
  else if byte 'A' ≤ b ∧ b ≤ byte 'F' then some (b.toNat - 'A'.toNat + 10)
  else none

/-- The number with four hexadecimal digits. -/
def hexUnit? (b₃ b₂ b₁ b₀ : UInt8) : Option Nat := do
  let d₃ ← hexDigit? b₃
  let d₂ ← hexDigit? b₂
  let d₁ ← hexDigit? b₁
  let d₀ ← hexDigit? b₀
  return 0x1000 * d₃ + 0x100 * d₂ + 0x10 * d₁ + d₀

/-- Read the body of a string and the quote that closes it, behind the pieces
already read, of which the newest comes first. -/
def stringBody? (pieces : List Piece) : List UInt8 → Option (List Piece × List UInt8)
  | [] => none
  | b :: rest =>
      if b = byte '\x22' then
        some (pieces.reverse, rest)
      else if b = byte '\\' then
        match rest with
        | [] => none
        | letter :: rest =>
            if letter = byte 'u' then
              match rest with
              | b₃ :: b₂ :: b₁ :: b₀ :: rest =>
                  match hexUnit? b₃ b₂ b₁ b₀ with
                  | none => none
                  | some unit => stringBody? (.unit unit :: pieces) rest
              | _ => none
            else
              match simpleEscape? letter with
              | none => none
              | some value => stringBody? (.byte value :: pieces) rest
      else if b < 0x20 then
        none
      else
        stringBody? (.byte b :: pieces) rest

def isHighSurrogate (unit : Nat) : Bool :=
  0xD800 ≤ unit && unit < 0xDC00

def isLowSurrogate (unit : Nat) : Bool :=
  0xDC00 ≤ unit && unit < 0xE000

def codePointBytes (point : Nat) : List UInt8 :=
  Text.utf8 (String.singleton (Char.ofNat point))

/-- The UTF-8 bytes that pieces stand for, behind those already found, which
are in reverse.  Half a surrogate pair stands for nothing. -/
def piecesBytes? (found : List UInt8) : List Piece → Option (List UInt8)
  | [] => some found.reverse
  | .byte value :: rest => piecesBytes? (value :: found) rest
  | .unit high :: rest =>
      if isHighSurrogate high then
        match rest with
        | .unit low :: rest =>
            if isLowSurrogate low then
              piecesBytes? ((codePointBytes
                (0x10000 + 0x400 * (high - 0xD800) + (low - 0xDC00))).reverse ++ found) rest
            else
              none
        | _ => none
      else if isLowSurrogate high then
        none
      else
        piecesBytes? ((codePointBytes high).reverse ++ found) rest

def piecesText? (pieces : List Piece) : Option String :=
  (piecesBytes? [] pieces).bind Text.ofUtf8?

def behind? : List UInt8 → List UInt8 → Option (List UInt8)
  | [], bytes => some bytes
  | _ :: _, [] => none
  | expected :: word, b :: rest => if b = expected then behind? word rest else none

def punctuation? (b : UInt8) : Option Lexeme :=
  if b = byte '[' then some .openArray
  else if b = byte ']' then some .closeArray
  else if b = byte '\x7b' then some .openObject
  else if b = byte '\x7d' then some .closeObject
  else if b = byte ',' then some .comma
  else if b = byte ':' then some .colon
  else none

/-- The lexeme of a word that begins with the byte `first`, and how the word
goes on. -/
def word? (first : UInt8) : Option (Lexeme × List UInt8) :=
  if first = byte 'n' then some (.null, [byte 'u', byte 'l', byte 'l'])
  else if first = byte 't' then some (.other, [byte 'r', byte 'u', byte 'e'])
  else if first = byte 'f' then some (.other, [byte 'a', byte 'l', byte 's', byte 'e'])
  else none

/-- Read the lexeme that begins with the byte `first`. -/
def lexemeFrom? (first : UInt8) (rest : List UInt8) : Option (Lexeme × List UInt8) :=
  match punctuation? first with
  | some lexeme => some (lexeme, rest)
  | none =>
      if first = byte '\x22' then
        (stringBody? [] rest).map fun (pieces, rest) => (.text (piecesText? pieces), rest)
      else if first = byte '-' then
        (number? rest).map fun (_, rest) => (.other, rest)
      else if isDigit first then
        number? (first :: rest)
      else
        (word? first).bind fun (lexeme, word) =>
          (behind? word rest).map fun rest => (lexeme, rest)

theorem digits?_length {bytes digits rest : List UInt8}
    (read : digits? bytes = some (digits, rest)) : rest.length < bytes.length := by
  simp only [digits?] at read
  split at read
  · cases read
  · rename_i nonempty
    cases read
    have parts := congrArg List.length
      (List.takeWhile_append_dropWhile (p := isDigit) (l := bytes))
    have positive : 0 < (bytes.takeWhile isDigit).length := by
      cases taken : bytes.takeWhile isDigit with
      | nil => simp [taken] at nonempty
      | cons => simp
    simp only [List.length_append] at parts
    omega

theorem wholeDigits?_length {bytes digits rest : List UInt8}
    (read : wholeDigits? bytes = some (digits, rest)) : rest.length < bytes.length := by
  unfold wholeDigits? at read
  split at read
  · cases read
  · split at read
    · cases read
      simp
    · exact digits?_length read

theorem fraction?_length {bytes rest : List UInt8} {present : Bool}
    (read : fraction? bytes = some (present, rest)) : rest.length ≤ bytes.length := by
  unfold fraction? at read
  split at read
  · cases read
    simp
  · split at read
    · obtain ⟨⟨digits, after⟩, found, equal⟩ := Option.map_eq_some_iff.mp read
      cases equal
      have := digits?_length found
      simp only [List.length_cons]
      omega
    · cases read
      simp

theorem skipSign_length (bytes : List UInt8) : (skipSign bytes).length ≤ bytes.length := by
  unfold skipSign
  split
  · simp
  · split <;> simp

theorem exponent?_length {bytes rest : List UInt8} {present : Bool}
    (read : exponent? bytes = some (present, rest)) : rest.length ≤ bytes.length := by
  unfold exponent? at read
  split at read
  · cases read
    simp
  · rename_i b following
    split at read
    · obtain ⟨⟨digits, after⟩, found, equal⟩ := Option.map_eq_some_iff.mp read
      cases equal
      have := digits?_length found
      have := skipSign_length following
      simp only [List.length_cons]
      omega
    · cases read
      simp

theorem number?_length {bytes rest : List UInt8} {lexeme : Lexeme}
    (read : number? bytes = some (lexeme, rest)) : rest.length < bytes.length := by
  simp only [number?, bind, Option.bind_eq_some_iff] at read
  obtain ⟨⟨digits, first⟩, whole, ⟨hasFraction, second⟩, fraction,
    ⟨hasExponent, third⟩, exponent, equal⟩ := read
  cases equal
  have afterDigits := wholeDigits?_length whole
  have afterFraction := fraction?_length fraction
  have afterExponent := exponent?_length exponent
  simp only at afterFraction afterExponent
  show third.length < bytes.length
  omega

theorem stringBody?_length {bytes rest : List UInt8} {found pieces : List Piece}
    (read : stringBody? found bytes = some (pieces, rest)) :
    rest.length < bytes.length := by
  fun_induction stringBody? found bytes <;> simp_all <;> omega

theorem behind?_length {word bytes rest : List UInt8}
    (read : behind? word bytes = some rest) : rest.length ≤ bytes.length := by
  fun_induction behind? word bytes <;> simp_all
  omega

/-- A lexeme uses up at least its first byte. -/
theorem lexemeFrom?_length {first : UInt8} {bytes rest : List UInt8} {lexeme : Lexeme}
    (read : lexemeFrom? first bytes = some (lexeme, rest)) :
    rest.length ≤ bytes.length := by
  unfold lexemeFrom? at read
  split at read
  case h_1 =>
    cases read
    simp
  case h_2 =>
    split at read
    case isTrue =>
      obtain ⟨⟨pieces, after⟩, found, equal⟩ := Option.map_eq_some_iff.mp read
      cases equal
      exact Nat.le_of_lt (stringBody?_length found)
    case isFalse =>
      split at read
      case isTrue =>
        obtain ⟨⟨value, after⟩, found, equal⟩ := Option.map_eq_some_iff.mp read
        cases equal
        exact Nat.le_of_lt (number?_length found)
      case isFalse =>
        split at read
        case isTrue =>
          have := number?_length read
          simp only [List.length_cons] at this
          omega
        case isFalse =>
          obtain ⟨⟨value, word⟩, _, found⟩ := Option.bind_eq_some_iff.mp read
          obtain ⟨after, found, equal⟩ := Option.map_eq_some_iff.mp found
          cases equal
          exact behind?_length found

/-- The lexemes of a document, behind those already read, of which the newest
comes first. -/
def lexOnto (found : List Lexeme) (bytes : List UInt8) : Option (List Lexeme) :=
  match bytes with
  | [] => some found.reverse
  | b :: rest =>
      if isBlank b then
        lexOnto found rest
      else
        match _read : lexemeFrom? b rest with
        | none => none
        | some (lexeme, after) => lexOnto (lexeme :: found) after
termination_by bytes.length
decreasing_by
  · simp
  · have := lexemeFrom?_length _read
    simp only [List.length_cons]
    omega

def lexemes? (bytes : List UInt8) : Option (List Lexeme) :=
  lexOnto [] bytes

end Json

end MaximalMunch
