import MaximalMunch.Proofs.Requests
import Mathlib.Order.Bounds.Basic

/-!
# Copying the text of a token

The text of a token is copied into a buffer that may be too small for it.  What
is copied ends at the last cut that fits, which is less than one character away
from the end of the text or of the buffer.  Going down byte by byte from there
finds that cut, as taking whole characters from the front does.
-/

namespace MaximalMunch

namespace Text

theorem fitting_isPrefix (room : Nat) (text : List Char) : fitting room text <+: text := by
  induction text generalizing room with
  | nil => exact List.prefix_refl []
  | cons c rest ih =>
      rw [fitting]
      split
      · exact (List.prefix_cons_inj c).mpr (ih (room - c.utf8Size))
      · exact List.nil_prefix

theorem byteLength_fitting_le (room : Nat) (text : List Char) :
    byteLength (fitting room text) ≤ room := by
  induction text generalizing room with
  | nil => exact Nat.zero_le room
  | cons c rest ih =>
      rw [fitting]
      split
      · have restFits := ih (room - c.utf8Size)
        rw [byteLength_cons]
        omega
      · exact Nat.zero_le room

/-- A leading run of characters that fits is no longer than the one taken. -/
theorem byteLength_le_fitting {room : Nat} {front text : List Char} (leads : front <+: text)
    (fits : byteLength front ≤ room) : byteLength front ≤ byteLength (fitting room text) := by
  induction text generalizing room front with
  | nil =>
      rw [List.prefix_nil.mp leads]
      exact Nat.zero_le _
  | cons c rest ih =>
      cases front with
      | nil => exact Nat.zero_le _
      | cons d front =>
          obtain ⟨rfl, leadsRest⟩ := List.cons_prefix_cons.mp leads
          rw [byteLength_cons] at fits ⊢
          have first : d.utf8Size ≤ room := by omega
          rw [fitting, if_pos first, byteLength_cons]
          have frontFits : byteLength front ≤ room - d.utf8Size := by omega
          exact Nat.add_le_add_left (ih leadsRest frontFits) _

/-- What does not fit is the end of the text from a character on, and no
character takes more than four bytes. -/
theorem min_lt_byteLength_fitting_add_four (room : Nat) (text : List Char) :
    min (byteLength text) room < byteLength (fitting room text) + 4 := by
  induction text generalizing room with
  | nil =>
      rw [byteLength_nil]
      omega
  | cons c rest ih =>
      rw [fitting]
      split
      · have restBound := ih (room - c.utf8Size)
        rw [byteLength_cons, byteLength_cons]
        omega
      · have small := c.utf8Size_le_four
        omega

theorem isGreatest_fitting (room : Nat) (text : List Char) :
    IsGreatest {offset | offset ≤ room ∧ isCut text offset = true}
      (byteLength (fitting room text)) := by
  constructor
  · exact ⟨byteLength_fitting_le room text,
      isCut_iff.mpr ⟨_, fitting_isPrefix room text, rfl⟩⟩
  · rintro offset ⟨inside, cut⟩
    obtain ⟨front, leads, rfl⟩ := isCut_iff.mp cut
    exact byteLength_le_fitting leads inside

/-- The way down always meets a cut, the greatest one that is not above its
start. -/
theorem exists_cutBelow? (text : List Char) (limit : Nat) :
    ∃ offset, cutBelow? text limit = some offset ∧
      IsGreatest {cut | cut ≤ limit ∧ isCut text cut = true} offset := by
  induction limit with
  | zero =>
      have origin : isCut text 0 = true := isCut_iff.mpr ⟨[], List.nil_prefix, rfl⟩
      refine ⟨0, by rw [cutBelow?, if_pos origin], ⟨Nat.le_refl 0, origin⟩, ?_⟩
      rintro cut ⟨inside, _⟩
      exact inside
  | succ limit ih =>
      by_cases here : isCut text (limit + 1) = true
      · refine ⟨limit + 1, by rw [cutBelow?, if_pos here], ⟨Nat.le_refl _, here⟩, ?_⟩
        rintro cut ⟨inside, _⟩
        exact inside
      · obtain ⟨offset, found, ⟨inside, cut⟩, greatest⟩ := ih
        refine ⟨offset, by rw [cutBelow?, if_neg here, found],
          ⟨Nat.le_succ_of_le inside, cut⟩, ?_⟩
        rintro other ⟨otherInside, otherCut⟩
        have otherBelow : other ≠ limit + 1 := by
          rintro rfl
          exact here otherCut
        exact greatest ⟨by omega, otherCut⟩

theorem cutBelow?_eq_fitting (text : List Char) (limit : Nat) :
    cutBelow? text limit = some (byteLength (fitting limit text)) := by
  obtain ⟨offset, found, greatest⟩ := exists_cutBelow? text limit
  rw [found, greatest.unique (isGreatest_fitting limit text)]

/-- Room beyond the end of the text makes no difference. -/
theorem fitting_min (room : Nat) (text : List Char) :
    fitting (min (byteLength text) room) text = fitting room text := by
  induction text generalizing room with
  | nil => rfl
  | cons c rest ih =>
      rw [fitting, fitting, byteLength_cons]
      by_cases first : c.utf8Size ≤ room
      · have firstMin : c.utf8Size ≤ min (c.utf8Size + byteLength rest) room := by omega
        have roomEq : min (c.utf8Size + byteLength rest) room - c.utf8Size =
            min (byteLength rest) (room - c.utf8Size) := by omega
        rw [if_pos first, if_pos firstMin, roomEq, ih]
      · rw [if_neg first, if_neg (by omega)]

/-- The bytes of a leading run of characters are the first bytes of the text. -/
theorem utf8_ofList_eq_take {front : List Char} {text : String} (leads : front <+: text.toList) :
    utf8 (String.ofList front) = (utf8 text).take (byteLength front) := by
  obtain ⟨after, split⟩ := leads
  have textEq : text = String.ofList front ++ String.ofList after := by
    rw [← String.ofList_append, split, String.ofList_toList]
  have lengthEq : byteLength front = (utf8 (String.ofList front)).length := by
    rw [length_utf8, ← byteLength_toList, String.toList_ofList]
  rw [textEq, utf8_append, lengthEq, List.take_left]

/-- The bytes of a text were copied to the front of a buffer, as many as fit
without splitting a character. -/
structure Copied (text : String) (buffer : List UInt8) (count : Nat)
    (written : List UInt8) : Prop where
  greatest : IsGreatest {offset | offset ≤ text.utf8ByteSize ∧ offset ≤ buffer.length ∧
    isCut text.toList offset = true} count
  front_eq : written.take count = (utf8 text).take count
  front_isText : ∃ front, ofUtf8? (written.take count) = some front
  rest_eq : written.drop count = buffer.drop count
  length_eq : written.length = buffer.length
  /-- Less than one character is lost. -/
  min_lt : min text.utf8ByteSize buffer.length < count + 4

theorem copied_fitting (text : String) (buffer : List UInt8) {count : Nat}
    (countEq : count = byteLength (fitting buffer.length text.toList)) :
    Copied text buffer count ((utf8 text).take count ++ buffer.drop count) := by
  have leads := fitting_isPrefix buffer.length text.toList
  obtain ⟨⟨inBuffer, cut⟩, greatest⟩ := isGreatest_fitting buffer.length text.toList
  have nearEnd := min_lt_byteLength_fitting_add_four buffer.length text.toList
  have frontBytes := utf8_ofList_eq_take leads
  rw [← countEq] at inBuffer cut greatest nearEnd frontBytes
  rw [byteLength_toList] at nearEnd
  have inText : count ≤ text.utf8ByteSize := by
    rw [countEq, ← byteLength_toList]
    exact byteLength_le_of_isPrefix leads
  have frontLength : ((utf8 text).take count).length = count := by
    rw [List.length_take, length_utf8, Nat.min_eq_left inText]
  have frontEq : ((utf8 text).take count ++ buffer.drop count).take count =
      (utf8 text).take count := by
    rw [List.take_append_of_le_length (by omega), List.take_of_length_le (by omega)]
  refine ⟨⟨⟨inText, inBuffer, cut⟩, ?_⟩, frontEq, ?_, ?_, ?_, nearEnd⟩
  · rintro offset ⟨_, offsetInBuffer, offsetCut⟩
    exact greatest ⟨offsetInBuffer, offsetCut⟩
  · rw [frontEq, ← frontBytes]
    exact ⟨_, ofUtf8?_utf8 _⟩
  · exact List.drop_left' frontLength
  · rw [List.length_append, frontLength, List.length_drop]
    omega

end Text

namespace PullScanner

variable {table : Table}

/-- The number of bytes that a scanner copies into so much room. -/
def copiedLength (scanner : PullScanner table) (room : Nat) : Nat :=
  Text.byteLength (Text.fitting room scanner.tokenText.toList)

theorem copyTokenText_eq (scanner : PullScanner table) (buffer : List UInt8) :
    scanner.copyTokenText buffer =
      (scanner.copiedLength buffer.length,
        (Text.utf8 scanner.tokenText).take (scanner.copiedLength buffer.length) ++
          buffer.drop (scanner.copiedLength buffer.length)) := by
  have leads := Text.fitting_isPrefix buffer.length scanner.tokenText.toList
  have lengthEq : (Text.utf8 (String.ofList
      (Text.fitting buffer.length scanner.tokenText.toList))).length =
        scanner.copiedLength buffer.length := by
    rw [Text.length_utf8, ← Text.byteLength_toList, String.toList_ofList, copiedLength]
  simp only [copyTokenText, lengthEq]
  rw [Text.utf8_ofList_eq_take leads, copiedLength]

/-- Going down byte by byte, nothing is missing on the way, and the result is
that of taking whole characters. -/
theorem copyTokenText?_eq (scanner : PullScanner table) (buffer : List UInt8) :
    scanner.copyTokenText? buffer = some (scanner.copyTokenText buffer) := by
  have lengthEq : (Text.utf8 scanner.tokenText).length =
      Text.byteLength scanner.tokenText.toList := by
    rw [Text.length_utf8, Text.byteLength_toList]
  have found : Text.cutBelow? scanner.tokenText.toList
      (min (Text.utf8 scanner.tokenText).length buffer.length) =
        some (scanner.copiedLength buffer.length) := by
    rw [Text.cutBelow?_eq_fitting, lengthEq, Text.fitting_min, copiedLength]
  have inText : scanner.copiedLength buffer.length ≤ (Text.utf8 scanner.tokenText).length := by
    rw [lengthEq]
    exact Text.byteLength_le_of_isPrefix (Text.fitting_isPrefix _ _)
  have inBuffer : scanner.copiedLength buffer.length ≤ buffer.length :=
    Text.byteLength_fitting_le _ _
  rw [copyTokenText_eq]
  simp [copyTokenText?, found, inText, inBuffer, guard]

/-- What a scanner shows as the text of its token is the part of the bound text
between the offsets that it shows. -/
theorem Shows.slice?_eq {scanner : PullScanner table} {text : String} {last : Option Token}
    (shows : scanner.Shows text last) :
    Text.slice? scanner.tokenStart scanner.tokenStop text.toList =
      some scanner.tokenText.toList := by
  cases last with
  | none =>
      obtain ⟨_, startEq, stopEq, textEq⟩ := shows
      rw [startEq, stopEq, textEq]
      exact Text.slice?_eq_some_iff.mpr ⟨[], text.toList, rfl, rfl, rfl⟩
  | some token =>
      obtain ⟨_, startEq, stopEq, sliced⟩ := shows
      rw [startEq, stopEq, sliced]

theorem Keeps.copied {scanner : PullScanner table} {reading : Reading} {last : Option Token}
    (keeps : scanner.Keeps reading last) (buffer : List UInt8) :
    Text.slice? scanner.tokenStart scanner.tokenStop reading.text.toList =
        some scanner.tokenText.toList ∧
      ∃ count written,
        scanner.copyTokenText? buffer = some (count, written) ∧
        scanner.copyTokenText buffer = (count, written) ∧
        Text.Copied scanner.tokenText buffer count written := by
  have copyEq := copyTokenText_eq scanner buffer
  refine ⟨keeps.shows.slice?_eq, _, _, ?_, copyEq, Text.copied_fitting _ buffer rfl⟩
  rw [copyTokenText?_eq, copyEq]

/-- Whatever was done with a scanner, the text of its token, which is the part
of the bound text between the token's offsets, can be copied into any buffer.
No step of that fails, as many bytes are copied as fit without splitting a
character, and the buffer behind them is left alone. -/
theorem perform_copyTokenText (table : Table) (text : String) (actions : List Action)
    (buffer : List UInt8) :
    let scanner := ((ofText table text).perform actions).2
    let bound := (actions.foldl Reading.after ⟨text, 0⟩).text
    Text.slice? scanner.tokenStart scanner.tokenStop bound.toList =
        some scanner.tokenText.toList ∧
      ∃ count written,
        scanner.copyTokenText? buffer = some (count, written) ∧
        scanner.copyTokenText buffer = (count, written) ∧
        Text.Copied scanner.tokenText buffer count written :=
  ((ofText_keeps table text).perform actions).2.copied buffer

/-- A character of two bytes does not fit into one. -/
example : (ofText sampleTable "é").next.2.copyTokenText [1] = (0, [1]) := by
  decide +kernel

end PullScanner

end MaximalMunch
