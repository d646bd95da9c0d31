import MaximalMunch.Json.Printer
import Mathlib.Data.List.Basic

/-!
# Lexemes are read back as they were written

Of all lexemes only numbers do not show where they end, so what follows a number
must not be able to continue it.  A string is read byte by byte: what a byte was
escaped to becomes one piece of the body again, and the pieces stand for the
bytes of the text.
-/

namespace MaximalMunch

namespace Json

theorem toNat_byte_of_isDigit {c : Char} (digit : c.isDigit = true) :
    (byte c).toNat = c.toNat := by
  simp only [Char.isDigit, Bool.and_eq_true, decide_eq_true_eq] at digit
  have atMost : c.toNat ≤ 57 := UInt32.le_iff_toNat_le.mp digit.2
  rw [byte, UInt8.toNat_ofNat_of_lt']
  exact Nat.lt_of_le_of_lt atMost (by decide)

theorem isDigit_byte {c : Char} (digit : c.isDigit = true) : isDigit (byte c) = true := by
  have value := toNat_byte_of_isDigit digit
  simp only [Char.isDigit, Bool.and_eq_true, decide_eq_true_eq] at digit
  have atLeast : 48 ≤ c.toNat := UInt32.le_iff_toNat_le.mp digit.1
  have atMost : c.toNat ≤ 57 := UInt32.le_iff_toNat_le.mp digit.2
  simp only [isDigit, Bool.and_eq_true, decide_eq_true_eq, UInt8.le_iff_toNat_le, value]
  exact ⟨atLeast, atMost⟩

theorem isDigit_of_mem_naturalBytes {value : Nat} {b : UInt8}
    (member : b ∈ naturalBytes value) : isDigit b = true := by
  obtain ⟨c, digit, rfl⟩ := List.mem_map.mp member
  exact isDigit_byte (Nat.isDigit_of_mem_toDigits (by decide) (by decide) digit)

theorem digitsValue_map_byte {digits : List Char} (each : ∀ c ∈ digits, c.isDigit = true) :
    digitsValue (digits.map byte) = Nat.ofDigitChars 10 digits 0 := by
  rw [digitsValue, List.foldl_map, Nat.ofDigitChars_eq_foldl]
  apply List.foldl_ext
  intro value c member
  rw [toNat_byte_of_isDigit (each c member)]

theorem digitsValue_naturalBytes (value : Nat) : digitsValue (naturalBytes value) = value := by
  rw [naturalBytes, digitsValue_map_byte, Nat.ofDigitChars_toDigits (by decide) (by decide)]
  exact fun c => Nat.isDigit_of_mem_toDigits (by decide) (by decide)

theorem naturalBytes_ne_nil (value : Nat) : naturalBytes value ≠ [] := by
  rw [naturalBytes, Ne, List.map_eq_nil_iff]
  exact Nat.toDigits_ne_nil

/-- The digits of a positive number do not begin with a zero. -/
theorem head?_naturalBytes_ne_zero {value : Nat} (positive : 0 < value) :
    (naturalBytes value).head? ≠ some (byte '0') := by
  induction value using Nat.strongRecOn with
  | ind value ih =>
      by_cases small : value < 10
      · have nonzero : ∀ digit < 10, 0 < digit → byte (Nat.digitChar digit) ≠ byte '0' := by
          decide
        rw [naturalBytes, Nat.toDigits_of_lt_base small]
        simpa using nonzero value small positive
      · have leading := ih (value / 10) (by omega) (by omega)
        have split : naturalBytes value =
            naturalBytes (value / 10) ++ [byte (Nat.digitChar (value % 10))] := by
          rw [naturalBytes, Nat.toDigits_of_base_le (by decide) (Nat.le_of_not_lt small),
            List.map_append]
          rfl
        rw [split, List.head?_append_of_ne_nil _ (naturalBytes_ne_nil _)]
        exact leading

/-- What may follow a number: it does not go on with a digit, a fraction or an
exponent. -/
def EndsNumber (rest : List UInt8) : Prop :=
  ∀ b ∈ rest.head?, isDigit b = false ∧ b ≠ byte '.' ∧ b ≠ byte 'e' ∧ b ≠ byte 'E'

theorem endsNumber_cons {b : UInt8} (rest : List UInt8)
    (ends : isDigit b = false ∧ b ≠ byte '.' ∧ b ≠ byte 'e' ∧ b ≠ byte 'E') :
    EndsNumber (b :: rest) := by
  rintro _ ⟨⟩
  exact ends

theorem digits?_append {digits rest : List UInt8} (nonempty : digits ≠ [])
    (each : ∀ b ∈ digits, isDigit b = true) (ends : EndsNumber rest) :
    digits? (digits ++ rest) = some (digits, rest) := by
  have stops : rest.takeWhile isDigit = [] ∧ rest.dropWhile isDigit = rest := by
    cases rest with
    | nil => exact ⟨rfl, rfl⟩
    | cons b rest =>
        have other : isDigit b = false := (ends b rfl).1
        simp [other]
  rw [digits?, List.takeWhile_append_of_pos each, List.dropWhile_append_of_pos each,
    stops.1, stops.2]
  simp [nonempty]

theorem wholeDigits?_naturalBytes_append (value : Nat) {rest : List UInt8}
    (ends : EndsNumber rest) :
    wholeDigits? (naturalBytes value ++ rest) = some (naturalBytes value, rest) := by
  have read : digits? (naturalBytes value ++ rest) = some (naturalBytes value, rest) :=
    digits?_append (naturalBytes_ne_nil value) (fun _ => isDigit_of_mem_naturalBytes) ends
  rcases Nat.eq_zero_or_pos value with rfl | positive
  · rfl
  · have leading := head?_naturalBytes_ne_zero positive
    cases digits : naturalBytes value with
    | nil => exact absurd digits (naturalBytes_ne_nil value)
    | cons b following =>
        rw [digits] at leading read
        have nonzero : b ≠ byte '0' := by simpa using leading
        rw [List.cons_append, wholeDigits?, if_neg nonzero]
        exact read

theorem fraction?_of_ends {rest : List UInt8} (ends : EndsNumber rest) :
    fraction? rest = some (false, rest) := by
  cases rest with
  | nil => rfl
  | cons b rest => rw [fraction?, if_neg (ends b rfl).2.1]

theorem exponent?_of_ends {rest : List UInt8} (ends : EndsNumber rest) :
    exponent? rest = some (false, rest) := by
  cases rest with
  | nil => rfl
  | cons b rest =>
      obtain ⟨_, _, notLower, notUpper⟩ := ends b rfl
      rw [exponent?, if_neg (not_or.mpr ⟨notLower, notUpper⟩)]

/-- Numbers below this bound have few enough digits to be told apart. -/
abbrev naturalBound : Nat := 100000000000000000000

theorem number?_naturalBytes_append {value : Nat} (small : value < naturalBound)
    {rest : List UInt8} (ends : EndsNumber rest) :
    number? (naturalBytes value ++ rest) = some (.natural value, rest) := by
  have few : (naturalBytes value).length ≤ maxDigits := by
    rw [naturalBytes, List.length_map, Nat.length_toDigits_le_iff (by decide) (by decide)]
    exact small
  simp only [number?, wholeDigits?_naturalBytes_append value ends, fraction?_of_ends ends,
    exponent?_of_ends ends, bind, Option.bind_some]
  simp [numberLexeme, few, digitsValue_naturalBytes]

/-- What an escaped byte is read back as: a numbered unit when it is a control
character for which no letter stands, and else itself. -/
def pieceOf (b : UInt8) : Piece :=
  if b < 0x20 ∧ b ∉ [0x08, 0x0C, 0x0A, 0x0D, 0x09] then .unit b.toNat else .byte b

/-- The three ways in which a byte of text is written. -/
theorem escapeByte_cases (b : UInt8) :
    (∃ letter, escapeByte b = [byte '\\', letter] ∧ letter ≠ byte 'u' ∧
      simpleEscape? letter = some b ∧ pieceOf b = .byte b) ∨
    (escapeByte b = [byte '\\', byte 'u', byte '0', byte '0', hexByte (b.toNat / 16),
      hexByte (b.toNat % 16)] ∧ b.toNat < 0x20 ∧ pieceOf b = .unit b.toNat) ∨
    (escapeByte b = [b] ∧ b ≠ byte '\x22' ∧ b ≠ byte '\\' ∧ ¬ b < 0x20 ∧
      pieceOf b = .byte b) := by
  by_cases lettered : b = byte '\x22' ∨ b = byte '\\' ∨ b = 0x08 ∨ b = 0x0C ∨ b = 0x0A ∨
    b = 0x0D ∨ b = 0x09
  · left
    rcases lettered with rfl | rfl | rfl | rfl | rfl | rfl | rfl
    · exact ⟨byte '\x22', by decide⟩
    · exact ⟨byte '\\', by decide⟩
    · exact ⟨byte 'b', by decide⟩
    · exact ⟨byte 'f', by decide⟩
    · exact ⟨byte 'n', by decide⟩
    · exact ⟨byte 'r', by decide⟩
    · exact ⟨byte 't', by decide⟩
  · right
    simp only [not_or] at lettered
    obtain ⟨notQuote, notBackslash, notLetter⟩ := lettered
    by_cases control : b < 0x20
    · left
      exact ⟨by simp [escapeByte, notQuote, notBackslash, notLetter, control],
        UInt8.lt_iff_toNat_lt.mp control, by simp [pieceOf, notLetter, control]⟩
    · right
      exact ⟨by simp [escapeByte, notQuote, notBackslash, notLetter, control],
        notQuote, notBackslash, control, by simp [pieceOf, control]⟩

theorem hexUnit?_hexByte {value : Nat} (control : value < 0x20) :
    hexUnit? (byte '0') (byte '0') (hexByte (value / 16)) (hexByte (value % 16)) =
      some value := by
  have each : ∀ value < 0x20, hexUnit? (byte '0') (byte '0') (hexByte (value / 16))
      (hexByte (value % 16)) = some value := by decide
  exact each value control

theorem stringBody?_escapeByte_append (pieces : List Piece) (b : UInt8) (rest : List UInt8) :
    stringBody? pieces (escapeByte b ++ rest) = stringBody? (pieceOf b :: pieces) rest := by
  have notQuote : byte '\\' ≠ byte '\x22' := by decide
  rcases escapeByte_cases b with ⟨letter, escaped, notUnit, stands, piece⟩ |
    ⟨escaped, control, piece⟩ | ⟨escaped, notQuote, notBackslash, notControl, piece⟩
  · rw [escaped, piece, stringBody?.eq_def]
    simp only [List.cons_append, List.nil_append, if_neg notQuote, if_pos, if_neg notUnit, stands]
  · rw [escaped, piece, stringBody?.eq_def]
    simp only [List.cons_append, List.nil_append, if_neg notQuote, if_pos,
      hexUnit?_hexByte control]
  · rw [escaped, piece, stringBody?.eq_def]
    simp only [List.singleton_append, if_neg notQuote, if_neg notBackslash, if_neg notControl]

theorem stringBody?_append (pieces : List Piece) (bytes rest : List UInt8) :
    stringBody? pieces (bytes.flatMap escapeByte ++ byte '\x22' :: rest) =
      some (pieces.reverse ++ bytes.map pieceOf, rest) := by
  induction bytes generalizing pieces with
  | nil =>
      rw [stringBody?.eq_def]
      simp
  | cons b bytes ih =>
      rw [List.flatMap_cons, List.append_assoc, stringBody?_escapeByte_append, ih]
      simp

theorem piecesBytes?_unit (found : List UInt8) {value : Nat} (control : value < 0x20)
    (rest : List Piece) :
    piecesBytes? found (.unit value :: rest) = piecesBytes? (UInt8.ofNat value :: found) rest := by
  have bytesEq : ∀ value < 0x20, codePointBytes value = [UInt8.ofNat value] := by decide +kernel
  have notHigh : ¬ isHighSurrogate value = true := by
    simp only [isHighSurrogate, Bool.and_eq_true, decide_eq_true_eq]
    omega
  have notLow : ¬ isLowSurrogate value = true := by
    simp only [isLowSurrogate, Bool.and_eq_true, decide_eq_true_eq]
    omega
  rw [piecesBytes?.eq_def]
  simp only [if_neg notHigh, if_neg notLow, bytesEq value control]
  rfl

theorem piecesBytes?_map_pieceOf (found bytes : List UInt8) :
    piecesBytes? found (bytes.map pieceOf) = some (found.reverse ++ bytes) := by
  induction bytes generalizing found with
  | nil => simp [piecesBytes?]
  | cons b bytes ih =>
      have read : piecesBytes? found (pieceOf b :: bytes.map pieceOf) =
          piecesBytes? (b :: found) (bytes.map pieceOf) := by
        rcases escapeByte_cases b with ⟨_, _, _, _, piece⟩ | ⟨_, control, piece⟩ |
          ⟨_, _, _, _, piece⟩
        · rw [piece, piecesBytes?]
        · rw [piece, piecesBytes?_unit found control, UInt8.ofNat_toNat]
        · rw [piece, piecesBytes?]
      rw [List.map_cons, read, ih, List.reverse_cons, List.append_assoc, List.singleton_append]

theorem piecesText?_map_pieceOf (text : String) :
    piecesText? ((Text.utf8 text).map pieceOf) = some text := by
  rw [piecesText?, piecesBytes?_map_pieceOf, List.reverse_nil, List.nil_append,
    Option.bind_some, Text.ofUtf8?_utf8]

variable {found : List Lexeme} {lexeme : Lexeme} {rest after : List UInt8}

theorem lexOnto_of_read {first : UInt8} (solid : isBlank first = false)
    (read : lexemeFrom? first rest = some (lexeme, after)) :
    lexOnto found (first :: rest) = lexOnto (lexeme :: found) after := by
  rw [lexOnto, if_neg (by simp [solid])]
  split
  case h_1 nothing =>
    rw [read] at nothing
    cases nothing
  case h_2 _ _ same =>
    rw [read] at same
    cases same
    rfl

theorem lexOnto_blanks_append {blanks : List UInt8} (each : ∀ b ∈ blanks, isBlank b = true) :
    lexOnto found (blanks ++ rest) = lexOnto found rest := by
  induction blanks with
  | nil => rfl
  | cons b blanks ih =>
      obtain ⟨blank, eachRest⟩ := List.forall_mem_cons.mp each
      rw [List.cons_append, lexOnto, if_pos blank, ih eachRest]

theorem lexOnto_punctuation (lexeme : Lexeme) {b : UInt8} (solid : isBlank b = false)
    (punctuation : punctuation? b = some lexeme) :
    lexOnto found (b :: rest) = lexOnto (lexeme :: found) rest := by
  apply lexOnto_of_read solid
  simp only [lexemeFrom?, punctuation]

theorem lexOnto_null :
    lexOnto found (byte 'n' :: byte 'u' :: byte 'l' :: byte 'l' :: rest) =
      lexOnto (.null :: found) rest :=
  lexOnto_of_read rfl rfl

theorem isDigit_spec {b : UInt8} (digit : isDigit b = true) :
    isBlank b = false ∧ punctuation? b = none ∧ b ≠ byte '\x22' ∧ b ≠ byte '-' := by
  have each : ∀ value < 0x100, isDigit (UInt8.ofNat value) = true →
      isBlank (UInt8.ofNat value) = false ∧ punctuation? (UInt8.ofNat value) = none ∧
        UInt8.ofNat value ≠ byte '\x22' ∧ UInt8.ofNat value ≠ byte '-' := by
    decide +kernel
  rw [← UInt8.ofNat_toNat (x := b)] at digit ⊢
  exact each b.toNat b.toNat_lt digit

theorem lexOnto_naturalBytes_append {value : Nat} (small : value < naturalBound)
    (ends : EndsNumber rest) :
    lexOnto found (naturalBytes value ++ rest) = lexOnto (.natural value :: found) rest := by
  have read := number?_naturalBytes_append small ends
  have digits : ∀ b ∈ naturalBytes value, isDigit b = true :=
    fun _ => isDigit_of_mem_naturalBytes
  cases written : naturalBytes value with
  | nil => exact absurd written (naturalBytes_ne_nil value)
  | cons b following =>
      rw [written] at read digits
      have digit := digits b List.mem_cons_self
      obtain ⟨solid, notPunctuation, notQuote, notMinus⟩ := isDigit_spec digit
      apply lexOnto_of_read solid
      simp only [lexemeFrom?, notPunctuation, if_neg notQuote, if_neg notMinus, if_pos digit]
      exact read

theorem lexOnto_textBytes_append (text : String) :
    lexOnto found (textBytes text ++ rest) = lexOnto (.text (some text) :: found) rest := by
  have body := stringBody?_append [] (Text.utf8 text) rest
  rw [textBytes, List.append_assoc, List.cons_append, List.singleton_append]
  apply lexOnto_of_read rfl
  have notPunctuation : punctuation? (byte '\x22') = none := by decide
  simp only [lexemeFrom?, notPunctuation, if_pos, body, Option.map_some, List.reverse_nil,
    List.nil_append, piecesText?_map_pieceOf]

end Json

end MaximalMunch
