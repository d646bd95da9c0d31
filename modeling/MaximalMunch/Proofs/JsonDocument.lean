import MaximalMunch.Json.Reader
import MaximalMunch.Proofs.JsonLexemes

/-!
# Documents are read back as they were printed

A layout puts blanks between lexemes and nothing else.  So whatever the layout,
a printed value is read as the lexemes of that value, and these are put together
to the value again.  Two kinds of values are lost: numbers with so many digits
that they are not told apart, and those that are not told apart from the outset.
-/

namespace MaximalMunch

namespace Json

/-- The layout puts nothing but blanks between lexemes. -/
structure Layout.Blank (layout : Layout) : Prop where
  lineBreak : ∀ depth, ∀ b ∈ layout.lineBreak depth, isBlank b = true
  gap : ∀ b ∈ layout.gap, isBlank b = true

theorem Layout.compact_blank : Layout.compact.Blank where
  lineBreak _ _ member := nomatch member
  gap _ member := nomatch member

theorem Layout.pretty_blank : Layout.pretty.Blank where
  lineBreak depth b member := by
    rcases List.mem_cons.mp member with rfl | indent
    · rfl
    · rw [(List.mem_replicate.mp indent).2]
      rfl
  gap b member := by
    rw [List.mem_singleton.mp member]
    rfl

/-- A value of which a printed document loses nothing. -/
inductive Plain : Json → Prop
  | null : Plain .null
  | natural {value : Nat} (small : value < naturalBound) : Plain (.natural value)
  | text (value : String) : Plain (.text value)
  | array {items : List Json} (each : ∀ item ∈ items, Plain item) : Plain (.array items)
  | object {members : List (String × Json)} (each : ∀ member ∈ members, Plain member.2) :
      Plain (.object members)

mutual

def lexemes : Json → List Lexeme
  | .null => [.null]
  | .natural value => [.natural value]
  | .text value => [.text (some value)]
  | .array [] => [.openArray, .closeArray]
  | .array (item :: items) => .openArray :: (lexemes item ++ itemLexemes items)
  | .object [] => [.openObject, .closeObject]
  | .object ((key, value) :: members) =>
      .openObject :: .text (some key) :: .colon :: (lexemes value ++ memberLexemes members)
  | .other => [.other]

/-- The lexemes of the further elements of an array, and of its end. -/
def itemLexemes : List Json → List Lexeme
  | [] => [.closeArray]
  | item :: items => .comma :: (lexemes item ++ itemLexemes items)

/-- The lexemes of the further members of an object, and of its end. -/
def memberLexemes : List (String × Json) → List Lexeme
  | [] => [.closeObject]
  | (key, value) :: members =>
      .comma :: .text (some key) :: .colon :: (lexemes value ++ memberLexemes members)

end

section Lexing

variable {layout : Layout} {found : List Lexeme} {rest : List UInt8} {depth : Nat}

theorem isDigit_of_isBlank {b : UInt8} (blank : isBlank b = true) :
    isDigit b = false ∧ b ≠ byte '.' ∧ b ≠ byte 'e' ∧ b ≠ byte 'E' := by
  simp only [isBlank, Bool.or_eq_true, beq_iff_eq] at blank
  rcases blank with ((rfl | rfl) | rfl) | rfl <;> decide

theorem endsNumber_blanks_append {blanks : List UInt8} (each : ∀ b ∈ blanks, isBlank b = true)
    (ends : EndsNumber rest) : EndsNumber (blanks ++ rest) := by
  cases blanks with
  | nil => exact ends
  | cons b blanks => exact endsNumber_cons _ (isDigit_of_isBlank (each b List.mem_cons_self))

theorem endsNumber_renderItems (blank : layout.Blank) (items : List Json) :
    EndsNumber (renderItems layout depth items ++ rest) := by
  cases items with
  | nil =>
      rw [renderItems, List.append_assoc]
      exact endsNumber_blanks_append (blank.lineBreak depth) (endsNumber_cons _ (by decide))
  | cons item items =>
      simp only [renderItems, List.cons_append]
      exact endsNumber_cons _ (by decide)

theorem endsNumber_renderMembers (blank : layout.Blank) (members : List (String × Json)) :
    EndsNumber (renderMembers layout depth members ++ rest) := by
  cases members with
  | nil =>
      rw [renderMembers, List.append_assoc]
      exact endsNumber_blanks_append (blank.lineBreak depth) (endsNumber_cons _ (by decide))
  | cons member members =>
      simp only [renderMembers, List.cons_append]
      exact endsNumber_cons _ (by decide)

/-- At any depth and wherever a number may end, the printed value is read as its
lexemes. -/
def Lexes (layout : Layout) (value : Json) : Prop :=
  ∀ depth found rest, EndsNumber rest →
    lexOnto found (render layout depth value ++ rest) =
      lexOnto ((lexemes value).reverse ++ found) rest

theorem lexOnto_renderItems (blank : layout.Blank) {items : List Json}
    (each : ∀ item ∈ items, Lexes layout item) :
    lexOnto found (renderItems layout depth items ++ rest) =
      lexOnto ((itemLexemes items).reverse ++ found) rest := by
  induction items generalizing found with
  | nil =>
      rw [renderItems, List.append_assoc, lexOnto_blanks_append (blank.lineBreak depth)]
      exact lexOnto_punctuation .closeArray rfl rfl
  | cons item items ih =>
      obtain ⟨lexes, eachRest⟩ := List.forall_mem_cons.mp each
      simp only [renderItems, List.cons_append, List.append_assoc]
      rw [lexOnto_punctuation .comma rfl rfl,
        lexOnto_blanks_append (blank.lineBreak (depth + 1)),
        lexes _ _ _ (endsNumber_renderItems blank items), ih eachRest]
      simp [itemLexemes]

theorem lexOnto_renderMembers (blank : layout.Blank) {members : List (String × Json)}
    (each : ∀ member ∈ members, Lexes layout member.2) :
    lexOnto found (renderMembers layout depth members ++ rest) =
      lexOnto ((memberLexemes members).reverse ++ found) rest := by
  induction members generalizing found with
  | nil =>
      rw [renderMembers, List.append_assoc, lexOnto_blanks_append (blank.lineBreak depth)]
      exact lexOnto_punctuation .closeObject rfl rfl
  | cons member members ih =>
      obtain ⟨key, value⟩ := member
      obtain ⟨lexes, eachRest⟩ := List.forall_mem_cons.mp each
      simp only [renderMembers, List.cons_append, List.append_assoc]
      rw [lexOnto_punctuation .comma rfl rfl,
        lexOnto_blanks_append (blank.lineBreak (depth + 1)), lexOnto_textBytes_append,
        lexOnto_punctuation .colon rfl rfl, lexOnto_blanks_append blank.gap,
        lexes _ _ _ (endsNumber_renderMembers blank members), ih eachRest]
      simp [memberLexemes]

theorem Plain.lexes (blank : layout.Blank) {value : Json} (plain : value.Plain) :
    Lexes layout value := by
  induction plain with
  | null => exact fun _ _ _ _ => lexOnto_null
  | natural small => exact fun _ _ _ ends => lexOnto_naturalBytes_append small ends
  | text value => exact fun _ _ _ _ => lexOnto_textBytes_append value
  | @array items each ih =>
      intro depth found rest _
      cases items with
      | nil =>
          simp only [render, List.cons_append, List.nil_append]
          rw [lexOnto_punctuation .openArray rfl rfl, lexOnto_punctuation .closeArray rfl rfl]
          rfl
      | cons item items =>
          obtain ⟨lexes, lexesRest⟩ := List.forall_mem_cons.mp ih
          simp only [render, List.cons_append, List.append_assoc]
          rw [lexOnto_punctuation .openArray rfl rfl,
            lexOnto_blanks_append (blank.lineBreak (depth + 1)),
            lexes _ _ _ (endsNumber_renderItems blank items),
            lexOnto_renderItems blank lexesRest]
          simp [lexemes]
  | @object members each ih =>
      intro depth found rest _
      cases members with
      | nil =>
          simp only [render, List.cons_append, List.nil_append]
          rw [lexOnto_punctuation .openObject rfl rfl, lexOnto_punctuation .closeObject rfl rfl]
          rfl
      | cons member members =>
          obtain ⟨key, value⟩ := member
          obtain ⟨lexes, lexesRest⟩ := List.forall_mem_cons.mp ih
          simp only [render, List.cons_append, List.append_assoc]
          rw [lexOnto_punctuation .openObject rfl rfl,
            lexOnto_blanks_append (blank.lineBreak (depth + 1)), lexOnto_textBytes_append,
            lexOnto_punctuation .colon rfl rfl, lexOnto_blanks_append blank.gap,
            lexes _ _ _ (endsNumber_renderMembers blank members),
            lexOnto_renderMembers blank lexesRest]
          simp [lexemes]

theorem lexemes?_print (blank : layout.Blank) {value : Json} (plain : value.Plain) :
    lexemes? (print layout value) = some (lexemes value) := by
  have ends : EndsNumber [] := nofun
  have read := plain.lexes blank 0 [] [] ends
  rw [List.append_nil, List.append_nil] at read
  rw [lexemes?, print, read, lexOnto, List.reverse_reverse]

end Lexing

section Assembling

/-- With any arrays and objects still open, the lexemes are put together to the
value. -/
def Assembles (value : Json) : Prop :=
  ∀ stack following, assemble? stack .value (lexemes value ++ following) =
    assemble? stack (.continuation value) following

variable {outer stack : List Frame} {following : List Lexeme}

-- Each kind of lexeme takes one step, whatever the innermost open array or object is.
theorem assemble?_openArray :
    assemble? stack .value (.openArray :: following) =
      assemble? (.array [] :: stack) .value following := by
  cases stack <;> rfl

theorem assemble?_openObject :
    assemble? stack .value (.openObject :: following) =
      assemble? stack (.key (some [])) following := by
  cases stack <;> rfl

theorem assemble?_emptyArray :
    assemble? (.array [] :: outer) .value (.closeArray :: following) =
      assemble? outer (.continuation (.array [])) following :=
  rfl

theorem assemble?_emptyObject :
    assemble? stack (.key (some [])) (.closeObject :: following) =
      assemble? stack (.continuation (.object [])) following := by
  cases stack <;> rfl

theorem assemble?_key {members : Option (List (String × Json))} {key : String} :
    assemble? stack (.key members) (.text (some key) :: .colon :: following) =
      assemble? (.object members (some key) :: stack) .value following := by
  cases stack <;> rfl

theorem assemble?_array_comma {items : List Json} {value : Json} :
    assemble? (.array items :: outer) (.continuation value) (.comma :: following) =
      assemble? (.array (value :: items) :: outer) .value following :=
  rfl

theorem assemble?_array_close {items : List Json} {value : Json} :
    assemble? (.array items :: outer) (.continuation value) (.closeArray :: following) =
      assemble? outer (.continuation (.array (value :: items).reverse)) following :=
  rfl

theorem assemble?_object_comma {members : List (String × Json)} {key : String} {value : Json} :
    assemble? (.object (some members) (some key) :: outer) (.continuation value)
        (.comma :: following) =
      assemble? outer (.key (some ((key, value) :: members))) following :=
  rfl

theorem assemble?_object_close {members : List (String × Json)} {key : String} {value : Json} :
    assemble? (.object (some members) (some key) :: outer) (.continuation value)
        (.closeObject :: following) =
      assemble? outer (.continuation (.object ((key, value) :: members).reverse)) following :=
  rfl

theorem assemble?_itemLexemes {items : List Json} (each : ∀ item ∈ items, Assembles item)
    (earlier : List Json) (value : Json) :
    assemble? (.array earlier :: outer) (.continuation value) (itemLexemes items ++ following) =
      assemble? outer (.continuation (.array (earlier.reverse ++ value :: items))) following := by
  induction items generalizing earlier value with
  | nil =>
      rw [itemLexemes, List.singleton_append, assemble?_array_close]
      simp
  | cons item items ih =>
      obtain ⟨assembles, eachRest⟩ := List.forall_mem_cons.mp each
      rw [itemLexemes, List.cons_append, List.append_assoc, assemble?_array_comma, assembles,
        ih eachRest]
      simp

theorem assemble?_memberLexemes {members : List (String × Json)}
    (each : ∀ member ∈ members, Assembles member.2) (earlier : List (String × Json))
    (key : String) (value : Json) :
    assemble? (.object (some earlier) (some key) :: outer) (.continuation value)
        (memberLexemes members ++ following) =
      assemble? outer (.continuation (.object (earlier.reverse ++ (key, value) :: members)))
        following := by
  induction members generalizing earlier key value with
  | nil =>
      rw [memberLexemes, List.singleton_append, assemble?_object_close]
      simp
  | cons member members ih =>
      obtain ⟨nextKey, next⟩ := member
      obtain ⟨assembles, eachRest⟩ := List.forall_mem_cons.mp each
      simp only [memberLexemes, List.cons_append, List.append_assoc]
      rw [assemble?_object_comma, assemble?_key, assembles, ih eachRest]
      simp

theorem Plain.assembles {value : Json} (plain : value.Plain) : Assembles value := by
  induction plain with
  | null =>
      intro stack following
      cases stack <;> rfl
  | natural small =>
      intro stack following
      cases stack <;> rfl
  | text value =>
      intro stack following
      cases stack <;> rfl
  | @array items each ih =>
      intro stack following
      cases items with
      | nil => exact assemble?_openArray.trans assemble?_emptyArray
      | cons item items =>
          obtain ⟨assembles, assemblesRest⟩ := List.forall_mem_cons.mp ih
          simp only [lexemes, List.cons_append, List.append_assoc, assemble?_openArray]
          rw [assembles, assemble?_itemLexemes assemblesRest]
          rfl
  | @object members each ih =>
      intro stack following
      cases members with
      | nil => exact assemble?_openObject.trans assemble?_emptyObject
      | cons member members =>
          obtain ⟨key, value⟩ := member
          obtain ⟨assembles, assemblesRest⟩ := List.forall_mem_cons.mp ih
          simp only [lexemes, List.cons_append, List.append_assoc, assemble?_openObject]
          rw [assemble?_key, assembles, assemble?_memberLexemes assemblesRest]
          rfl

end Assembling

/-- Whatever the layout, a printed value is read back. -/
theorem parse?_print {layout : Layout} (blank : layout.Blank) {value : Json}
    (plain : value.Plain) : parse? (print layout value) = some value := by
  have assembled := plain.assembles [] []
  rw [List.append_nil] at assembled
  rw [parse?, lexemes?_print blank plain, Option.bind_some, assembled]
  rfl

end Json

end MaximalMunch
