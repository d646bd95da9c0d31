import MaximalMunch.Proofs.DemoStates

/-!
# The languages of the demonstration grammar

Every kind of the demonstration grammar has a language of its own, described
without states.  What is recognized from a state is the rest of the words whose
front leads there; the states are taken in an order in which each needs only
itself and those before it.
-/

namespace MaximalMunch

namespace DemoGrammar

/-- One character or more, each with the property. -/
def Many (property : Char → Prop) (word : List Char) : Prop :=
  word ≠ [] ∧ ∀ c ∈ word, property c

/-- The two characters that end a block comment. -/
def closer : List Char := ['*', '/']

/-- The text ends with the first closer in it. -/
def Closes (text : List Char) : Prop :=
  closer <:+ text ∧ ∀ shorter, shorter <+: text → shorter ≠ text → ¬ closer <:+ shorter

/-- The language of a category. -/
def Category.Contains : Category → List Char → Prop
  | .integer, word => Many IsDigit word
  | .float, word =>
      ∃ whole fraction, word = whole ++ '.' :: fraction ∧ Many IsDigit whole ∧
        Many IsDigit fraction
  | .identifier, word =>
      ∃ first rest, word = first :: rest ∧ IsLetter first ∧
        ∀ c ∈ rest, IsLetter c ∨ IsDigit c
  | .blank, word => Many (fun c => c = ' ' ∨ c = '\t') word
  | .lineEnd, word => word = ['\n'] ∨ word = ['\r'] ∨ word = ['\r', '\n']
  | .lineComment, word =>
      ∃ text, word = '/' :: '/' :: text ∧ ∀ c ∈ text, c ≠ '\r' ∧ c ≠ '\n'
  | .blockComment, word => ∃ text, word = '/' :: '*' :: text ∧ Closes text
  | .operator, word =>
      (∃ c ∈ singleOperators.toList, word = [c]) ∨ word = ['/'] ∨ word = ['/', '='] ∨
        ∃ first seconds, (first, seconds) ∈ doubleOperators ∧
          (word = [first] ∨ ∃ second ∈ seconds.toList, word = [first, second])

theorem Category.not_contains_nil (category : Category) : ¬ category.Contains [] := by
  cases category <;> simp [Contains, Many]

section Comments

variable {c : Char} {text : List Char}

theorem closer_suffix_cons_iff (opens : ¬ closer <+: c :: text) :
    closer <:+ c :: text ↔ closer <:+ text := by
  rw [List.suffix_cons_iff]
  exact or_iff_right fun whole => opens (whole ▸ List.prefix_rfl)

/-- A text that does not begin with the closer closes when its rest does. -/
theorem closes_cons_iff (opens : ¬ closer <+: c :: text) : Closes (c :: text) ↔ Closes text := by
  rw [Closes, Closes, closer_suffix_cons_iff opens]
  apply and_congr_right
  intro _
  constructor
  · intro first shorter leads proper ends
    refine first (c :: shorter) (List.cons_prefix_cons.mpr ⟨rfl, leads⟩) ?_ ?_
    · exact fun same => proper (List.cons.inj same).2
    · exact ends.trans (List.suffix_cons c shorter)
  · intro first shorter leads proper ends
    cases shorter with
    | nil => simp [closer] at ends
    | cons d shorter =>
        obtain ⟨rfl, leadsRest⟩ := List.cons_prefix_cons.mp leads
        have opensShorter : ¬ closer <+: d :: shorter := fun begins => opens (begins.trans leads)
        refine first shorter leadsRest ?_ ((closer_suffix_cons_iff opensShorter).mp ends)
        rintro rfl
        exact proper rfl

theorem closes_cons_iff_of_ne_star (other : c ≠ '*') : Closes (c :: text) ↔ Closes text :=
  closes_cons_iff (by simp [closer, other.symm])

theorem closes_star_cons_iff_of_ne_slash (other : c ≠ '/') :
    Closes ('*' :: c :: text) ↔ Closes (c :: text) :=
  closes_cons_iff (by simp [closer, other.symm])

theorem not_closes_nil : ¬ Closes [] := by
  simp [Closes, closer]

theorem not_closes_star : ¬ Closes ['*'] := by
  rw [closes_cons_iff (by simp [closer])]
  exact not_closes_nil

/-- Behind the closer nothing may follow. -/
theorem closes_star_slash_iff : Closes ('*' :: '/' :: text) ↔ text = [] := by
  change Closes (closer ++ text) ↔ text = []
  constructor
  · rintro ⟨_, first⟩
    by_contra more
    refine first closer (List.prefix_append closer text) ?_ List.suffix_rfl
    intro same
    exact more (List.append_right_eq_self.mp same.symm)
  · rintro rfl
    rw [List.append_nil]
    refine ⟨List.suffix_rfl, ?_⟩
    intro shorter leads proper ends
    exact proper (leads.eq_of_length_le ends.length_le)

end Comments

/-- Digits and a point, with digits behind it.  Unlike in the language of floats,
the point may come first. -/
def PointedDigits (word : List Char) : Prop :=
  ∃ whole fraction, word = whole ++ '.' :: fraction ∧ (∀ c ∈ whole, IsDigit c) ∧
    Many IsDigit fraction

theorem not_pointedDigits_nil : ¬ PointedDigits [] := by
  simp [PointedDigits]

theorem pointedDigits_cons_iff {c : Char} {word : List Char} :
    PointedDigits (c :: word) ↔
      IsDigit c ∧ PointedDigits word ∨ c = '.' ∧ Many IsDigit word := by
  constructor
  · rintro ⟨whole, fraction, wordEq, wholeDigits, fractionDigits⟩
    cases whole with
    | nil =>
        obtain ⟨rfl, rfl⟩ := List.cons.inj wordEq
        exact .inr ⟨rfl, fractionDigits⟩
    | cons d whole =>
        obtain ⟨rfl, rfl⟩ := List.cons.inj wordEq
        obtain ⟨digit, restDigits⟩ := List.forall_mem_cons.mp wholeDigits
        exact .inl ⟨digit, whole, fraction, rfl, restDigits, fractionDigits⟩
  · rintro (⟨digit, whole, fraction, rfl, wholeDigits, fractionDigits⟩ | ⟨rfl, fractionDigits⟩)
    · exact ⟨c :: whole, fraction, rfl, List.forall_mem_cons.mpr ⟨digit, wholeDigits⟩,
        fractionDigits⟩
    · exact ⟨[], word, rfl, by simp, fractionDigits⟩

theorem float_contains_cons_iff {c : Char} {word : List Char} :
    Category.float.Contains (c :: word) ↔ IsDigit c ∧ PointedDigits word := by
  constructor
  · rintro ⟨whole, fraction, wordEq, ⟨nonempty, wholeDigits⟩, fractionDigits⟩
    obtain ⟨d, whole, rfl⟩ := List.exists_cons_of_ne_nil nonempty
    obtain ⟨rfl, rfl⟩ := List.cons.inj wordEq
    obtain ⟨digit, restDigits⟩ := List.forall_mem_cons.mp wholeDigits
    exact ⟨digit, whole, fraction, rfl, restDigits, fractionDigits⟩
  · rintro ⟨digit, whole, fraction, rfl, wholeDigits, fractionDigits⟩
    refine ⟨c :: whole, fraction, rfl, ⟨List.cons_ne_nil c whole, ?_⟩, fractionDigits⟩
    exact List.forall_mem_cons.mpr ⟨digit, wholeDigits⟩

theorem operator_contains_cons_iff {c : Char} {word : List Char} :
    Category.operator.Contains (c :: word) ↔
      c = '/' ∧ (word = [] ∨ word = ['=']) ∨ c ∈ singleOperators.toList ∧ word = [] ∨
        ∃ seconds, (c, seconds) ∈ doubleOperators ∧
          (word = [] ∨ ∃ second ∈ seconds.toList, word = [second]) := by
  have behindFirst : ∀ (first : Char) (seconds : String),
      (c :: word = [first] ∨ ∃ second ∈ seconds.toList, c :: word = [first, second]) ↔
        first = c ∧ (word = [] ∨ ∃ second ∈ seconds.toList, word = [second]) := by
    intro first seconds
    simp [and_or_left, and_left_comm, eq_comm]
  simp only [Category.Contains, behindFirst]
  simp [and_or_left, or_left_comm, or_assoc]

section Recognition

variable {table : Table} {state : StateId} {rules : StateRules} {category own : Category}
  {word : List Char}

theorem Built.recognizes_nil_iff (built : Built table)
    (known : stateRules[state.toNat]? = some rules) :
    table.Recognizes state [] category.kind ↔ rules.accepts = some category.kind := by
  rw [Table.recognizes_nil_iff, built.kindOf_eq_some_iff known]

theorem Built.recognizes_iff_of_stuck (built : Built table)
    (known : stateRules[state.toNat]? = some rules) (accepts : rules.accepts = some own.kind)
    (stuck : ∀ c target, ¬ table.Leads state c target) :
    table.Recognizes state word category.kind ↔ category = own ∧ word = [] := by
  rw [Table.recognizes_iff_of_stuck stuck, built.kindOf_eq_some_iff known, accepts,
    Option.some_inj, Category.kind_inj, eq_comm]

theorem Built.recognizes_iff_of_loop (built : Built table)
    (known : stateRules[state.toNat]? = some rules) (accepts : rules.accepts = some own.kind)
    {keeps : Char → Prop}
    (loops : ∀ c target, table.Leads state c target ↔ keeps c ∧ target = state) :
    table.Recognizes state word category.kind ↔ category = own ∧ ∀ c ∈ word, keeps c := by
  rw [Table.recognizes_iff_of_loop loops, built.kindOf_eq_some_iff known, accepts,
    Option.some_inj, Category.kind_inj, eq_comm]

variable (built : Built table)
include built

theorem recognizes_complete_iff :
    table.Recognizes complete word category.kind ↔ category = .operator ∧ word = [] :=
  built.recognizes_iff_of_stuck rfl rfl fun _ _ => not_leads_complete built

theorem recognizes_lineFeed_iff :
    table.Recognizes lineFeed word category.kind ↔ category = .lineEnd ∧ word = [] :=
  built.recognizes_iff_of_stuck rfl rfl fun _ _ => not_leads_lineFeed built

theorem recognizes_closed_iff :
    table.Recognizes closed word category.kind ↔ category = .blockComment ∧ word = [] :=
  built.recognizes_iff_of_stuck rfl rfl fun _ _ => not_leads_closed built

theorem recognizes_fraction_iff :
    table.Recognizes fraction word category.kind ↔
      category = .float ∧ ∀ c ∈ word, IsDigit c :=
  built.recognizes_iff_of_loop rfl rfl fun _ _ => leads_fraction_iff built

theorem recognizes_identifier_iff :
    table.Recognizes identifier word category.kind ↔
      category = .identifier ∧ ∀ c ∈ word, IsLetter c ∨ IsDigit c :=
  built.recognizes_iff_of_loop rfl rfl fun _ _ => leads_identifier_iff built

theorem recognizes_blank_iff :
    table.Recognizes blank word category.kind ↔
      category = .blank ∧ ∀ c ∈ word, c = ' ' ∨ c = '\t' :=
  built.recognizes_iff_of_loop rfl rfl fun _ _ => leads_blank_iff built

theorem recognizes_line_iff :
    table.Recognizes line word category.kind ↔
      category = .lineComment ∧ ∀ c ∈ word, c ≠ '\r' ∧ c ≠ '\n' :=
  built.recognizes_iff_of_loop rfl rfl fun _ _ => leads_line_iff built

theorem recognizes_point_iff :
    table.Recognizes point word category.kind ↔ category = .float ∧ Many IsDigit word := by
  cases word with
  | nil =>
      rw [built.recognizes_nil_iff rfl]
      simp [Many]
  | cons c word =>
      simp only [Table.recognizes_cons_iff, leads_point_iff built]
      simp [recognizes_fraction_iff built, Many, and_left_comm]

/-- Behind digits, more digits and perhaps a point with digits behind it. -/
theorem recognizes_integer_iff :
    table.Recognizes integer word category.kind ↔
      category = .integer ∧ (∀ c ∈ word, IsDigit c) ∨ category = .float ∧ PointedDigits word := by
  induction word with
  | nil =>
      rw [built.recognizes_nil_iff rfl]
      simp [not_pointedDigits_nil, eq_comm]
  | cons c word ih =>
      simp only [Table.recognizes_cons_iff, leads_integer_iff built]
      simp [or_and_right, exists_or, and_assoc, ih, recognizes_point_iff built,
        pointedDigits_cons_iff, and_or_left, and_left_comm, or_assoc]

theorem recognizes_carriageReturn_iff :
    table.Recognizes carriageReturn word category.kind ↔
      category = .lineEnd ∧ (word = [] ∨ word = ['\n']) := by
  cases word with
  | nil =>
      rw [built.recognizes_nil_iff rfl]
      simp [eq_comm]
  | cons c word =>
      simp only [Table.recognizes_cons_iff, leads_carriageReturn_iff built]
      simp [recognizes_lineFeed_iff built, and_left_comm]

theorem recognizes_opened_iff {index : Nat} {operator : Char × String}
    (entry : doubleOperators[index]? = some operator) :
    table.Recognizes (opened index) word category.kind ↔
      category = .operator ∧ (word = [] ∨ ∃ second ∈ operator.2.toList, word = [second]) := by
  cases word with
  | nil =>
      rw [built.recognizes_nil_iff (stateRules_opened entry)]
      simp [eq_comm]
  | cons c word =>
      simp only [Table.recognizes_cons_iff, leads_opened_iff built entry]
      simp [recognizes_complete_iff built, and_left_comm]

/-- In a block comment the rest must close it.  Behind a star the star is still
part of the rest, since it may be the first half of the closer. -/
theorem recognizes_block_and_star_iff :
    (table.Recognizes block word category.kind ↔ category = .blockComment ∧ Closes word) ∧
      (table.Recognizes star word category.kind ↔
        category = .blockComment ∧ Closes ('*' :: word)) := by
  induction word with
  | nil =>
      rw [built.recognizes_nil_iff rfl, built.recognizes_nil_iff rfl]
      simp [not_closes_nil, not_closes_star]
  | cons c word ih =>
      obtain ⟨fromBlock, fromStar⟩ := ih
      simp only [Table.recognizes_cons_iff, leads_block_iff built, leads_star_iff built]
      by_cases isStar : c = '*'
      · subst isStar
        simp [fromStar, closes_star_cons_iff_of_ne_slash]
      by_cases isSlash : c = '/'
      · subst isSlash
        simp [fromBlock, recognizes_closed_iff built, closes_star_slash_iff,
          closes_cons_iff_of_ne_star]
      · simp [isStar, isSlash, fromBlock, closes_star_cons_iff_of_ne_slash isSlash,
          closes_cons_iff_of_ne_star isStar]

theorem recognizes_slash_iff :
    table.Recognizes slash word category.kind ↔
      category = .operator ∧ (word = [] ∨ word = ['=']) ∨
      category = .lineComment ∧ (∃ text, word = '/' :: text ∧ ∀ c ∈ text, c ≠ '\r' ∧ c ≠ '\n') ∨
      category = .blockComment ∧ ∃ text, word = '*' :: text ∧ Closes text := by
  cases word with
  | nil =>
      rw [built.recognizes_nil_iff rfl]
      simp [eq_comm]
  | cons c word =>
      simp only [Table.recognizes_cons_iff, leads_slash_iff built]
      simp [or_and_right, exists_or, and_assoc, recognizes_complete_iff built,
        recognizes_line_iff built, (recognizes_block_and_star_iff built).1, and_left_comm]

/-- Behind the first character of an operator of two characters. -/
theorem exists_recognizes_opened_iff {c : Char} :
    (∃ index seconds, doubleOperators[index]? = some (c, seconds) ∧
        table.Recognizes (opened index) word category.kind) ↔
      category = .operator ∧ ∃ seconds, (c, seconds) ∈ doubleOperators ∧
        (word = [] ∨ ∃ second ∈ seconds.toList, word = [second]) := by
  constructor
  · rintro ⟨index, seconds, entry, recognized⟩
    obtain ⟨operator, rest⟩ := (recognizes_opened_iff built entry).mp recognized
    exact ⟨operator, seconds, List.mem_of_getElem? entry, rest⟩
  · rintro ⟨operator, seconds, member, rest⟩
    obtain ⟨index, entry⟩ := List.mem_iff_getElem?.mp member
    exact ⟨index, seconds, entry, (recognizes_opened_iff built entry).mpr ⟨operator, rest⟩⟩

theorem recognizes_start_cons_iff {c : Char} :
    table.Recognizes Builder.start (c :: word) category.kind ↔
      IsDigit c ∧ table.Recognizes integer word category.kind ∨
      IsLetter c ∧ table.Recognizes identifier word category.kind ∨
      (c = ' ' ∨ c = '\t') ∧ table.Recognizes blank word category.kind ∨
      c = '\n' ∧ table.Recognizes lineFeed word category.kind ∨
      c = '\r' ∧ table.Recognizes carriageReturn word category.kind ∨
      c = '/' ∧ table.Recognizes slash word category.kind ∨
      c ∈ singleOperators.toList ∧ table.Recognizes complete word category.kind ∨
      ∃ index seconds, doubleOperators[index]? = some (c, seconds) ∧
        table.Recognizes (opened index) word category.kind := by
  simp only [Table.recognizes_cons_iff, leads_start_iff built]
  simp only [or_and_right, exists_or, and_assoc]
  simp

/-- A word of some category is recognized from the initial state. -/
theorem recognizes_start_iff :
    table.Recognizes Builder.start word category.kind ↔ category.Contains word := by
  cases word with
  | nil =>
      rw [built.recognizes_nil_iff rfl]
      simp [category.not_contains_nil]
  | cons c word =>
      rw [recognizes_start_cons_iff built, recognizes_integer_iff built,
        recognizes_identifier_iff built, recognizes_blank_iff built,
        recognizes_lineFeed_iff built, recognizes_carriageReturn_iff built,
        recognizes_slash_iff built, recognizes_complete_iff built,
        exists_recognizes_opened_iff built]
      cases category with
      | integer => simp [Category.Contains, Many]
      | float => simp [float_contains_cons_iff]
      | identifier => simp [Category.Contains]
      | blank => simp [Category.Contains, Many]
      | lineEnd => simp [Category.Contains, and_or_left]
      | lineComment => simp [Category.Contains, and_assoc]
      | blockComment => simp [Category.Contains, and_assoc]
      | operator => simp [operator_contains_cons_iff]

end Recognition

/-- The grammar compiles to a table with the named categories as its kinds.  It
accepts a word as a kind just when the word is in the language of the category,
and accepts no other words. -/
theorem table_accepts_iff_contains :
    ∃ table, DemoGrammar.table = .ok table ∧
      table.kinds = Category.all.map (fun category => (category.kind, category.name)) ∧
      (∀ (category : Category) (word : List Char),
        table.Accepts word category.kind ↔ category.Contains word) ∧
      ∀ (word : List Char) (kind : KindId), table.Accepts word kind ↔
        ∃ category : Category, kind = category.kind ∧ category.Contains word := by
  obtain ⟨table, compiled, built⟩ := exists_built
  have acceptsIff : ∀ (category : Category) (word : List Char),
      table.Accepts word category.kind ↔ category.Contains word := by
    intro category word
    rw [Table.Accepts, ← Table.Recognizes, built.start_eq, recognizes_start_iff built]
    apply and_iff_right_of_imp
    rintro contained rfl
    exact category.not_contains_nil contained
  refine ⟨table, compiled, built.kinds_eq, acceptsIff, ?_⟩
  intro word kind
  constructor
  · intro accepted
    obtain ⟨_, state, _, kindEq⟩ := Table.accepts_iff.mp accepted
    have few := Table.lt_kindCount_of_kindOf kindEq
    rw [built.kindCount_eq] at few
    obtain ⟨category, rfl⟩ := Category.exists_kind_eq few
    exact ⟨category, rfl, (acceptsIff category word).mp accepted⟩
  · rintro ⟨category, rfl, contained⟩
    exact (acceptsIff category word).mpr contained

end DemoGrammar

end MaximalMunch
