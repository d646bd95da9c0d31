import MaximalMunch.Proofs.Tokenize
import Mathlib.Data.List.Nodup

/-!
# Kinds and their names

A table issues one kind for each of its names, and the unrecognized kind.  Among
these, a kind and its name determine each other: names are distinct, none of
them is the reserved one, and with few enough names no kind of the table's own
is numbered like the unrecognized kind.  The tokens of a text have no other
kinds.
-/

namespace MaximalMunch

namespace Table

/-- The kind is the unrecognized one, or has a name in the table. -/
def Issues (table : Table) (kind : KindId) : Prop :=
  kind = KindId.unrecognized ∨ kind.toNat < table.kindCount

instance (table : Table) (kind : KindId) : Decidable (table.Issues kind) :=
  inferInstanceAs (Decidable (_ ∨ _))

variable {table : Table}

theorem kindName_unrecognized :
    table.kindName KindId.unrecognized = KindId.unrecognizedName := by
  simp [kindName]

theorem kindNamed?_unrecognizedName :
    table.kindNamed? KindId.unrecognizedName = some KindId.unrecognized := by
  simp [kindNamed?]

/-- With few enough kinds, a kind of the table's own has the name at its
position. -/
theorem getElem?_kindNames (fewKinds : table.kindCount ≤ UInt32.size - 2) {kind : KindId}
    (known : kind.toNat < table.kindCount) :
    table.parts.kindNames.toList[kind.toNat]? = some (table.kindName kind) := by
  have own : kind ≠ KindId.unrecognized := by
    rintro rfl
    have value : KindId.unrecognized.toNat = UInt32.size - 2 := rfl
    omega
  have inside : kind.toNat < table.parts.kindNames.size := known
  rw [kindName, if_neg own]
  simp [Array.getD, inside]

/-- Names are distinct, so the search for a name ends at the only position that
has it. -/
theorem idxOf?_kindNames_eq_some_iff {name : String} {index : Nat} :
    table.parts.kindNames.toList.idxOf? name = some index ↔
      table.parts.kindNames.toList[index]? = some name := by
  rw [List.idxOf?_eq_some_iff, List.getElem?_eq_some_iff]
  constructor
  · rintro ⟨known, named, _⟩
    exact ⟨known, named⟩
  · rintro ⟨known, named⟩
    refine ⟨known, named, ?_⟩
    intro earlier before same
    have sameIndex :=
      (List.Nodup.getElem_inj_iff table.valid.kindNames_nodup).mp (same.trans named.symm)
    omega

theorem toNat_ofNat_of_lt_kindCount (fewKinds : table.kindCount ≤ UInt32.size - 2)
    {index : Nat} (known : index < table.kindCount) : (UInt32.ofNat index).toNat = index := by
  apply UInt32.toNat_ofNat_of_lt'
  omega

/-- Looking up a name answers the only issued kind that has it. -/
theorem kindNamed?_eq_some_iff (fewKinds : table.kindCount ≤ UInt32.size - 2)
    {name : String} {kind : KindId} :
    table.kindNamed? name = some kind ↔
      table.Issues kind ∧ table.kindName kind = name := by
  by_cases reserved : name = KindId.unrecognizedName
  · subst reserved
    rw [kindNamed?_unrecognizedName, Option.some.injEq]
    constructor
    · rintro rfl
      exact ⟨.inl rfl, kindName_unrecognized⟩
    · rintro ⟨unrecognized | known, named⟩
      · exact unrecognized.symm
      · have stored := List.mem_of_getElem? (getElem?_kindNames fewKinds known)
        rw [named, Array.mem_toList_iff] at stored
        exact absurd stored table.valid.kindNames_free
  · rw [kindNamed?, if_neg reserved, Option.map_eq_some_iff]
    constructor
    · rintro ⟨index, search, rfl⟩
      have stored := idxOf?_kindNames_eq_some_iff.mp search
      have known : index < table.kindCount := (List.getElem?_eq_some_iff.mp stored).1
      have sameIndex := toNat_ofNat_of_lt_kindCount fewKinds known
      have issued : (UInt32.ofNat index).toNat < table.kindCount := by rwa [sameIndex]
      have named := getElem?_kindNames fewKinds issued
      rw [sameIndex, stored, Option.some.injEq] at named
      exact ⟨.inr issued, named.symm⟩
    · rintro ⟨unrecognized | known, named⟩
      · rw [unrecognized, kindName_unrecognized] at named
        exact absurd named.symm reserved
      · have stored := getElem?_kindNames fewKinds known
        rw [named] at stored
        exact ⟨kind.toNat, idxOf?_kindNames_eq_some_iff.mpr stored, UInt32.ofNat_toNat⟩

theorem Munches.issues {ahead word : List Char} {kind : KindId}
    (munches : table.Munches ahead word kind) : table.Issues kind := by
  cases munches with
  | recognized _ accepted _ =>
      obtain ⟨_, state, _, kindEq⟩ := accepts_iff.mp accepted
      exact .inr (lt_kindCount_of_kindOf kindEq)
  | unrecognized _ _ => exact .inl rfl

theorem issues_of_mem_tokenize {text : String} {token : Token}
    (member : token ∈ tokenize table text) : table.Issues token.kind := by
  obtain ⟨_, _, _, _, munches, _⟩ :=
    Munched.exists_munches [] (tokenize_munched table text) member
  exact munches.issues

/-- With few enough kinds, an issued kind is found by its name, whatever a name
is found to be has that name, and the tokens of a text have issued kinds. -/
theorem kindNames_invertible (fewKinds : table.kindCount ≤ UInt32.size - 2) :
    (∀ kind, table.Issues kind → table.kindNamed? (table.kindName kind) = some kind) ∧
    (∀ name kind, table.kindNamed? name = some kind → table.kindName kind = name) ∧
    ∀ text, ∀ token ∈ tokenize table text,
      table.Issues token.kind ∧
        table.kindNamed? (table.kindName token.kind) = some token.kind := by
  have found : ∀ kind, table.Issues kind →
      table.kindNamed? (table.kindName kind) = some kind := by
    intro kind issued
    exact (kindNamed?_eq_some_iff fewKinds).mpr ⟨issued, rfl⟩
  refine ⟨found, ?_, ?_⟩
  · intro name kind named
    exact ((kindNamed?_eq_some_iff fewKinds).mp named).2
  · intro text token member
    have issued := issues_of_mem_tokenize member
    exact ⟨issued, found token.kind issued⟩

theorem kindNames_invertible_sample :
    sampleTable.kindCount ≤ UInt32.size - 2 ∧
      sampleTable.kindNamed? (sampleTable.kindName 1) = some 1 ∧
      (∀ name, sampleTable.kindNamed? name = some 0 → "A" = name) ∧
      ∀ token ∈ tokenize sampleTable "abéabc",
        sampleTable.kindNamed? (sampleTable.kindName token.kind) = some token.kind := by
  have fewKinds : sampleTable.kindCount ≤ UInt32.size - 2 := by decide
  obtain ⟨found, named, issued⟩ := kindNames_invertible fewKinds
  have nameEq : sampleTable.kindName 0 = "A" := by decide
  refine ⟨fewKinds, found 1 (by decide), ?_, ?_⟩
  · intro name search
    exact nameEq.symm.trans (named name 0 search)
  · intro token member
    exact (issued "abéabc" token member).2

end Table

end MaximalMunch
