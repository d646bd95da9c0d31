import MaximalMunch.Text.Offset

/-!
# Cuts at byte offsets

A byte offset into a text is a cut when it is the length of some leading run of
characters.  Every character takes at least one byte, so a text has at most one
cut at each offset.  The partial cutting functions find exactly the cuts that
exist.
-/

namespace MaximalMunch

namespace Text

/-- The bytes of a string are those of its characters. -/
@[simp]
theorem byteLength_toList (text : String) :
    byteLength text.toList = text.utf8ByteSize := by
  have ofList (chars : List Char) :
      byteLength chars = (String.ofList chars).utf8ByteSize := by
    induction chars with
    | nil => rfl
    | cons c rest ih =>
        rw [byteLength_cons, ih, String.ofList_cons, String.utf8ByteSize_append,
          String.utf8ByteSize_singleton]
  rw [ofList, String.ofList_toList]

theorem byteLength_eq_zero {text : List Char} : byteLength text = 0 ↔ text = [] := by
  cases text with
  | nil => simp
  | cons c rest =>
      have := c.utf8Size_pos
      simp
      omega

theorem byteLength_pos {text : List Char} (nonempty : text ≠ []) :
    0 < byteLength text :=
  Nat.pos_of_ne_zero fun zero => nonempty (byteLength_eq_zero.mp zero)

/-- A text has at most one cut at a given byte offset. -/
theorem append_inj_of_byteLength_eq {before after otherBefore otherAfter : List Char}
    (sameText : before ++ after = otherBefore ++ otherAfter)
    (sameLength : byteLength before = byteLength otherBefore) :
    before = otherBefore ∧ after = otherAfter := by
  induction before generalizing otherBefore with
  | nil =>
      have otherNil : otherBefore = [] := byteLength_eq_zero.mp sameLength.symm
      subst otherNil
      exact ⟨rfl, sameText⟩
  | cons c before ih =>
      cases otherBefore with
      | nil => exact absurd (byteLength_eq_zero.mp sameLength) (List.cons_ne_nil c before)
      | cons d otherBefore =>
          simp only [List.cons_append, List.cons.injEq] at sameText
          obtain ⟨rfl, sameRest⟩ := sameText
          simp only [byteLength_cons, Nat.add_left_cancel_iff] at sameLength
          obtain ⟨rfl, rfl⟩ := ih sameRest sameLength
          exact ⟨rfl, rfl⟩

theorem byteLength_le_of_isPrefix {front text : List Char} (leads : front <+: text) :
    byteLength front ≤ byteLength text := by
  obtain ⟨after, rfl⟩ := leads
  rw [byteLength_append]
  exact Nat.le_add_right _ _

/-- Of two leading runs of a text the shorter one, in bytes, is a part of the
longer one. -/
theorem isPrefix_of_byteLength_le {text shorter longer : List Char}
    (shorterLeads : shorter <+: text) (longerLeads : longer <+: text)
    (ordered : byteLength shorter ≤ byteLength longer) : shorter <+: longer := by
  rcases List.prefix_or_prefix_of_prefix shorterLeads longerLeads with leads | leads
  · exact leads
  · obtain ⟨rest, rfl⟩ := leads
    have restNil : rest = [] := by
      rw [← byteLength_eq_zero]
      simp only [byteLength_append] at ordered
      omega
    simp [restNil]

@[simp]
theorem splitBytes?_append (before after : List Char) :
    splitBytes? (byteLength before) (before ++ after) = some (before, after) := by
  induction before with
  | nil => simp [splitBytes?]
  | cons c before ih =>
      obtain ⟨count, positive⟩ : ∃ count, c.utf8Size + byteLength before = count + 1 :=
        Nat.exists_eq_add_one.mpr (Nat.add_pos_left c.utf8Size_pos _)
      rw [List.cons_append, byteLength_cons, positive, splitBytes?, ← positive]
      simp [ih]

theorem splitBytes?_eq_some_iff {count : Nat} {text before after : List Char} :
    splitBytes? count text = some (before, after) ↔
      text = before ++ after ∧ byteLength before = count := by
  constructor
  · intro split
    induction text generalizing count before with
    | nil =>
        cases count with
        | zero => simp_all [splitBytes?]
        | succ count => simp [splitBytes?] at split
    | cons c rest ih =>
        cases count with
        | zero => simp_all [splitBytes?]
        | succ count =>
            rw [splitBytes?] at split
            split at split
            case isFalse => cases split
            case isTrue fits =>
              obtain ⟨⟨restBefore, restAfter⟩, restSplit, equal⟩ :=
                Option.map_eq_some_iff.mp split
              cases equal
              obtain ⟨rfl, restLength⟩ := ih restSplit
              refine ⟨rfl, ?_⟩
              rw [byteLength_cons, restLength]
              omega
  · rintro ⟨rfl, rfl⟩
    exact splitBytes?_append before after

@[simp]
theorem dropBytes?_append (before after : List Char) :
    dropBytes? (byteLength before) (before ++ after) = some after := by
  simp [dropBytes?_eq_map_splitBytes?]

theorem dropBytes?_eq_some_iff {count : Nat} {text after : List Char} :
    dropBytes? count text = some after ↔
      ∃ before, text = before ++ after ∧ byteLength before = count := by
  simp [dropBytes?_eq_map_splitBytes?, splitBytes?_eq_some_iff]

theorem isCut_iff {text : List Char} {offset : Nat} :
    isCut text offset = true ↔ ∃ front, front <+: text ∧ byteLength front = offset := by
  rw [isCut, Option.isSome_iff_exists]
  constructor
  · rintro ⟨after, dropped⟩
    obtain ⟨front, rfl, length⟩ := dropBytes?_eq_some_iff.mp dropped
    exact ⟨front, List.prefix_append front after, length⟩
  · rintro ⟨front, ⟨after, rfl⟩, length⟩
    exact ⟨after, dropBytes?_eq_some_iff.mpr ⟨front, rfl, length⟩⟩

/-- A cut of a text is a cut of every longer text. -/
theorem dropBytes?_append_of_eq_some {count : Nat} {text after : List Char}
    (dropped : dropBytes? count text = some after) (more : List Char) :
    dropBytes? count (text ++ more) = some (after ++ more) := by
  obtain ⟨before, rfl, located⟩ := dropBytes?_eq_some_iff.mp dropped
  exact dropBytes?_eq_some_iff.mpr ⟨before, List.append_assoc before after more, located⟩

/-- A slice exists exactly between two cuts of a text. -/
theorem slice?_eq_some_iff {start stop : Nat} {text word : List Char} :
    slice? start stop text = some word ↔
      ∃ before after, text = before ++ word ++ after ∧
        byteLength before = start ∧ start + byteLength word = stop := by
  constructor
  · intro sliced
    rw [slice?] at sliced
    split at sliced
    case isFalse => cases sliced
    case isTrue ordered =>
      obtain ⟨rest, dropped, taken⟩ := Option.bind_eq_some_iff.mp sliced
      obtain ⟨⟨covered, after⟩, split, rfl⟩ := Option.map_eq_some_iff.mp taken
      obtain ⟨before, rfl, startEq⟩ := dropBytes?_eq_some_iff.mp dropped
      obtain ⟨rfl, wordLength⟩ := splitBytes?_eq_some_iff.mp split
      refine ⟨before, after, by simp, startEq, ?_⟩
      change byteLength covered = stop - start at wordLength
      change start + byteLength covered = stop
      omega
  · rintro ⟨before, after, rfl, rfl, rfl⟩
    simp [slice?]

end Text

end MaximalMunch
