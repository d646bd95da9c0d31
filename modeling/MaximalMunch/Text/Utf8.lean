/-!
# Text as bytes

The UTF-8 form of a string as a list of bytes, and back.  Not every list of
bytes is text.
-/

namespace MaximalMunch

namespace Text

def utf8 (text : String) : List UInt8 :=
  text.toByteArray.data.toList

theorem length_utf8 (text : String) : (utf8 text).length = text.utf8ByteSize := by
  rw [utf8, Array.length_toList]
  rfl

theorem utf8_append (first second : String) :
    utf8 (first ++ second) = utf8 first ++ utf8 second := by
  simp [utf8]

/-- The string with the given bytes, if they are valid UTF-8. -/
def ofUtf8? (bytes : List UInt8) : Option String :=
  String.fromUTF8? ⟨bytes.toArray⟩

@[simp]
theorem ofUtf8?_utf8 (text : String) : ofUtf8? (utf8 text) = some text := by
  have same : ByteArray.mk (utf8 text).toArray = text.toByteArray := by
    simp [utf8]
  simp only [ofUtf8?, same, String.fromUTF8?]
  rw [dif_pos]
  · rfl
  · simpa using text.isValidUTF8

/-- Whatever can be read is the written form of the result. -/
theorem utf8_of_ofUtf8?_eq_some {bytes : List UInt8} {text : String}
    (read : ofUtf8? bytes = some text) : utf8 text = bytes := by
  simp only [ofUtf8?, String.fromUTF8?] at read
  split at read
  · cases read
    simp [utf8, String.fromUTF8]
  · cases read

end Text

end MaximalMunch
