/-!
# Little-endian words

Words of 16 and 32 bits as bytes, the least significant byte first.
-/

namespace MaximalMunch

namespace LittleEndian

def bytes16 (word : UInt16) : List UInt8 :=
  [UInt8.ofNat word.toNat, UInt8.ofNat (word.toNat / 0x100)]

def bytes32 (word : UInt32) : List UInt8 :=
  [UInt8.ofNat word.toNat, UInt8.ofNat (word.toNat / 0x100),
    UInt8.ofNat (word.toNat / 0x10000), UInt8.ofNat (word.toNat / 0x1000000)]

def word16 (b₀ b₁ : UInt8) : UInt16 :=
  UInt16.ofNat (b₀.toNat + 0x100 * b₁.toNat)

def word32 (b₀ b₁ b₂ b₃ : UInt8) : UInt32 :=
  UInt32.ofNat (b₀.toNat + 0x100 * b₁.toNat + 0x10000 * b₂.toNat + 0x1000000 * b₃.toNat)

@[simp]
theorem length_bytes16 (word : UInt16) : (bytes16 word).length = 2 :=
  rfl

@[simp]
theorem length_bytes32 (word : UInt32) : (bytes32 word).length = 4 :=
  rfl

/-- Two bytes make the word that is written as these bytes. -/
theorem word16_eq_iff {b₀ b₁ : UInt8} {word : UInt16} :
    word16 b₀ b₁ = word ↔ [b₀, b₁] = bytes16 word := by
  have bound₀ := b₀.toNat_lt
  have bound₁ := b₁.toNat_lt
  have wordBound := word.toNat_lt
  simp only [word16, bytes16, ← UInt16.toNat_inj, ← UInt8.toNat_inj, List.cons.injEq,
    UInt16.toNat_ofNat', UInt8.toNat_ofNat', and_true]
  omega

/-- Four bytes make the word that is written as these bytes. -/
theorem word32_eq_iff {b₀ b₁ b₂ b₃ : UInt8} {word : UInt32} :
    word32 b₀ b₁ b₂ b₃ = word ↔ [b₀, b₁, b₂, b₃] = bytes32 word := by
  have bound₀ := b₀.toNat_lt
  have bound₁ := b₁.toNat_lt
  have bound₂ := b₂.toNat_lt
  have bound₃ := b₃.toNat_lt
  have wordBound := word.toNat_lt
  simp only [word32, bytes32, ← UInt32.toNat_inj, ← UInt8.toNat_inj, List.cons.injEq,
    UInt32.toNat_ofNat', UInt8.toNat_ofNat', and_true]
  omega

end LittleEndian

end MaximalMunch
