import MaximalMunch.Format.Graph
import MaximalMunch.Proofs.Recognition

/-!
# Labels of drawings

A label stands between double quotes.  It must not end early or run on, so a
quote inside it is escaped, a backslash is never its last character unless it is
escaped itself, and it stays on its line.  Labels of edges are always like that.
The label of an accepting state ends with the name of a kind as it is, so it is
like that only if the name is.
-/

namespace MaximalMunch

namespace Graph

def EndsLine (c : Char) : Prop :=
  c = '\n' ∨ c = '\r'

instance (c : Char) : Decidable (EndsLine c) :=
  inferInstanceAs (Decidable (_ ∨ _))

/-- The character means nothing but itself between double quotes. -/
def IsPlain (c : Char) : Prop :=
  c ≠ '\x22' ∧ c ≠ '\\' ∧ ¬ EndsLine c

instance (c : Char) : Decidable (IsPlain c) :=
  inferInstanceAs (Decidable (_ ∧ _))

def Plain (text : List Char) : Prop :=
  ∀ c ∈ text, IsPlain c

instance (text : List Char) : Decidable (Plain text) :=
  List.decidableBAll IsPlain text

theorem Plain.append {front back : List Char} (plain : Plain front) (plainBack : Plain back) :
    Plain (front ++ back) :=
  List.forall_mem_append.mpr ⟨plain, plainBack⟩

/-- The text can stand between double quotes: it is on one line, each double
quote in it is escaped by a backslash, and each backslash either escapes the
character behind it or is escaped. -/
inductive WellQuoted : List Char → Prop
  | nil : WellQuoted []
  | plain {c : Char} {rest : List Char} (isPlain : IsPlain c) (others : WellQuoted rest) :
      WellQuoted (c :: rest)
  | escaped {c : Char} {rest : List Char} (inLine : ¬ EndsLine c) (others : WellQuoted rest) :
      WellQuoted ('\\' :: c :: rest)

theorem Plain.wellQuoted {text : List Char} (plain : Plain text) : WellQuoted text := by
  induction text with
  | nil => exact .nil
  | cons c rest ih =>
      obtain ⟨isPlain, others⟩ := List.forall_mem_cons.mp plain
      exact .plain isPlain (ih others)

theorem wellQuoted_cons_iff {c : Char} {rest : List Char} (isPlain : IsPlain c) :
    WellQuoted (c :: rest) ↔ WellQuoted rest := by
  constructor
  · intro quoted
    cases quoted with
    | plain _ others => exact others
    | escaped _ _ => exact absurd rfl isPlain.2.1
  · exact .plain isPlain

theorem wellQuoted_escaped_iff {c : Char} {rest : List Char} (inLine : ¬ EndsLine c) :
    WellQuoted ('\\' :: c :: rest) ↔ WellQuoted rest := by
  constructor
  · intro quoted
    cases quoted with
    | plain isPlain _ => exact absurd rfl isPlain.2.1
    | escaped _ others => exact others
  · exact .escaped inLine

/-- Behind a part that is well quoted, the rest is on its own. -/
theorem WellQuoted.append_iff {front back : List Char} (quoted : WellQuoted front) :
    WellQuoted (front ++ back) ↔ WellQuoted back := by
  induction quoted with
  | nil => exact Iff.rfl
  | plain isPlain _ ih => exact (wellQuoted_cons_iff isPlain).trans ih
  | escaped inLine _ ih => exact (wellQuoted_escaped_iff inLine).trans ih

theorem WellQuoted.append {front back : List Char} (quoted : WellQuoted front)
    (quotedBack : WellQuoted back) : WellQuoted (front ++ back) :=
  quoted.append_iff.mpr quotedBack

theorem WellQuoted.not_endsLine {text : List Char} (quoted : WellQuoted text) :
    ∀ c ∈ text, ¬ EndsLine c := by
  induction quoted with
  | nil => exact fun _ member => nomatch member
  | plain isPlain _ ih => exact List.forall_mem_cons.mpr ⟨isPlain.2.2, ih⟩
  | escaped inLine _ ih =>
      exact List.forall_mem_cons.mpr ⟨by decide, List.forall_mem_cons.mpr ⟨inLine, ih⟩⟩

theorem plain_toDigits {base : Nat} (large : 1 < base) (small : base ≤ 16) (number : Nat) :
    Plain (Nat.toDigits base number) := by
  have digits : ∀ value, value < 16 → IsPlain value.digitChar := by decide
  intro c digit
  induction number using Nat.strongRecOn with
  | ind number ih =>
      by_cases short : number < base
      · rw [Nat.toDigits_of_lt_base short, List.mem_singleton] at digit
        exact digit ▸ digits number (by omega)
      · rw [Nat.toDigits_of_base_le large (Nat.le_of_not_lt short), List.mem_append,
          List.mem_singleton] at digit
        rcases digit with earlier | last
        · exact ih (number / base) (Nat.div_lt_self (by omega) large) earlier
        · have remainder := Nat.mod_lt number (Nat.zero_lt_of_lt large)
          exact last ▸ digits (number % base) (by omega)

theorem plain_decimal (number : Nat) : Plain (Nat.toDigits 10 number) :=
  plain_toDigits (by decide) (by decide) number

theorem plain_hexadecimal (number : Nat) : Plain (Text.hexadecimal number) :=
  plain_toDigits (by decide) (by decide) number

/-- A code point that is written by number: the backslash in front is escaped. -/
theorem wellQuoted_numbered (number : Nat) :
    WellQuoted (['\\', '\\', 'u', '\x7b'] ++ Text.hexadecimal number ++ ['\x7d']) := by
  have opening : WellQuoted ['\\', '\\', 'u', '\x7b'] :=
    .escaped (by decide) (Plain.wellQuoted (by decide))
  exact (opening.append (plain_hexadecimal number).wellQuoted).append
    (Plain.wellQuoted (by decide))

theorem not_endsLine_of_shown {c : Char}
    (shown : (Text.isAlphanumeric c || isAsciiPunctuation c) = true) : ¬ EndsLine c := by
  rintro (rfl | rfl)
  · exact absurd shown (by decide)
  · exact absurd shown (by decide)

theorem wellQuoted_pointLabel (point : Nat) : WellQuoted (pointLabel point) := by
  unfold pointLabel
  split
  · simp only
    split
    case isTrue shown =>
      have inLine := not_endsLine_of_shown shown
      split
      case isTrue => exact .escaped inLine .nil
      case isFalse unmarked =>
        rw [not_or] at unmarked
        exact .plain ⟨unmarked.1, unmarked.2, inLine⟩ .nil
    case isFalse => exact wellQuoted_numbered _
  · exact wellQuoted_numbered point

theorem wellQuoted_intervalLabel (interval : Interval) :
    WellQuoted (intervalLabel interval) := by
  unfold intervalLabel
  split
  · exact wellQuoted_pointLabel _
  · exact ((wellQuoted_pointLabel _).append (.plain (by decide) .nil)).append
      (wellQuoted_pointLabel _)

theorem wellQuoted_intercalate {between : List Char} (quoted : WellQuoted between)
    {parts : List (List Char)} (each : ∀ part ∈ parts, WellQuoted part) :
    WellQuoted (List.intercalate between parts) := by
  induction parts with
  | nil => exact .nil
  | cons part parts ih =>
      obtain ⟨partQuoted, others⟩ := List.forall_mem_cons.mp each
      cases parts with
      | nil => simpa using partQuoted
      | cons next parts =>
          rw [List.intercalate_cons_cons]
          exact (partQuoted.append quoted).append (ih others)

theorem wellQuoted_classLabel (table : Table) (cls : UInt16) :
    WellQuoted (classLabel table cls).toList := by
  unfold classLabel
  split
  · exact Plain.wellQuoted (by decide +kernel)
  · rw [String.toList_ofList]
    apply wellQuoted_intercalate (.plain (by decide) .nil)
    intro part member
    obtain ⟨interval, _, rfl⟩ := List.mem_map.mp member
    exact wellQuoted_intervalLabel interval

/-- The line holds a label: nothing before the quote that opens it could be
taken for a quote, and the quote that is written to close it is followed only by
the end of the statement. -/
def Labels (line label : List Char) : Prop :=
  ∃ before, Plain before ∧
    line = before ++ '\x22' :: (label ++ ['\x22', ']', ';'])

theorem Labels.dropWhile_eq {line label : List Char} (labels : Labels line label) :
    line.dropWhile (· != '\x22') = '\x22' :: (label ++ ['\x22', ']', ';']) := by
  obtain ⟨before, plain, rfl⟩ := labels
  rw [List.dropWhile_append_of_pos]
  · exact List.dropWhile_cons_of_neg (by decide)
  · intro c member
    exact bne_iff_ne.mpr (plain c member).1

/-- A line holds at most one label. -/
theorem Labels.unique {line label other : List Char} (labels : Labels line label)
    (labelsOther : Labels line other) : label = other := by
  have same := labels.dropWhile_eq.symm.trans labelsOther.dropWhile_eq
  rw [List.cons.injEq] at same
  exact List.append_cancel_right same.2

theorem Labels.lineFeed_notMem {line label : List Char} (labels : Labels line label)
    (quoted : WellQuoted label) : '\n' ∉ line := by
  obtain ⟨before, plain, rfl⟩ := labels
  intro member
  simp only [List.mem_append, List.mem_cons, List.not_mem_nil, or_false] at member
  rcases member with member | opening | member | closing
  · exact (plain '\n' member).2.2 (.inl rfl)
  · exact absurd opening (by decide)
  · exact quoted.not_endsLine '\n' member (.inl rfl)
  · exact absurd closing (by decide)

theorem toString_string (text : String) : toString text = text :=
  rfl

theorem plain_indented (number : Nat) : Plain ("  ".toList ++ Nat.toDigits 10 number) := by
  have blanks : Plain "  ".toList := by decide +kernel
  exact blanks.append (plain_decimal number)

theorem labels_accepting (state : Nat) (name : String) :
    Labels (Statement.accepting state name).render.toList
      (Nat.toDigits 10 state ++ ['\\', 'n'] ++ name.toList) := by
  have attributes : Plain " [peripheries=2, label=".toList := by decide +kernel
  refine ⟨_, (plain_indented state).append attributes, ?_⟩
  simp [Statement.render, toString_string]

theorem labels_edge (source target : Nat) (label : String) :
    Labels (Statement.edge source target label).render.toList label.toList := by
  have arrow : Plain " -> ".toList := by decide +kernel
  have attributes : Plain " [label=".toList := by decide +kernel
  refine ⟨_, (((plain_indented source).append arrow).append (plain_decimal target)).append
    attributes, ?_⟩
  simp [Statement.render, toString_string]

theorem plain_initial (state : Nat) : Plain (Statement.initial state).render.toList := by
  have attributes : Plain " [shape=box];".toList := by decide +kernel
  have lineEq : (Statement.initial state).render.toList =
      "  ".toList ++ Nat.toDigits 10 state ++ " [shape=box];".toList := by
    simp [Statement.render, toString_string]
  rw [lineEq]
  exact (plain_indented state).append attributes

theorem not_labels_of_plain {line label : List Char} (plain : Plain line) :
    ¬ Labels line label := by
  rintro ⟨before, _, rfl⟩
  exact (plain '\x22' (by simp)).1 rfl

theorem wellQuoted_accepting_iff (state : Nat) (name : List Char) :
    WellQuoted (Nat.toDigits 10 state ++ ['\\', 'n'] ++ name) ↔ WellQuoted name :=
  ((plain_decimal state).wellQuoted.append (.escaped (by decide) .nil)).append_iff

variable {table : Table}

theorem mem_statements_iff {statement : Statement} :
    statement ∈ statements table ↔
      ∃ state, state < table.stateCount ∧
        statement ∈ stateStatements table (UInt32.ofNat state) := by
  simp [statements]

theorem eq_edge_of_edgeStatement? {state : StateId} {cls : Nat} {statement : Statement}
    (drawn : edgeStatement? table state cls = some statement) :
    ∃ target, statement =
      .edge state.toNat target (classLabel table (UInt16.ofNat cls)) := by
  simp only [edgeStatement?] at drawn
  split at drawn
  · cases drawn
  · rw [Option.some.injEq] at drawn
    exact ⟨_, drawn.symm⟩

theorem eq_of_nodeStatement? {state : StateId} {statement : Statement}
    (drawn : nodeStatement? table state = some statement) :
    (∃ state kind, table.kindOf state = some kind ∧
        statement = .accepting state.toNat (table.kindName kind)) ∨
      ∃ number, statement = .initial number := by
  rw [nodeStatement?] at drawn
  cases accepted : table.kindOf state with
  | some kind =>
      simp only [accepted, Option.some.injEq] at drawn
      exact .inl ⟨state, kind, accepted, drawn.symm⟩
  | none =>
      simp only [accepted] at drawn
      split at drawn
      · rw [Option.some.injEq] at drawn
        exact .inr ⟨_, drawn.symm⟩
      · cases drawn

/-- What is drawn is an accepting state with the name of its kind, the initial
state, or an edge with the label of a class. -/
theorem statement_cases {statement : Statement} (drawn : statement ∈ statements table) :
    (∃ state kind, table.kindOf state = some kind ∧
        statement = .accepting state.toNat (table.kindName kind)) ∨
      (∃ state, statement = .initial state) ∨
      ∃ source target cls, statement = .edge source target (classLabel table cls) := by
  obtain ⟨number, _, member⟩ := mem_statements_iff.mp drawn
  generalize UInt32.ofNat number = state at member
  rw [stateStatements] at member
  split at member
  · cases member
  rcases List.mem_append.mp member with node | edge
  · rw [Option.mem_toList] at node
    exact (eq_of_nodeStatement? node).imp_right .inl
  · obtain ⟨cls, _, edgeEq⟩ := List.mem_filterMap.mp edge
    obtain ⟨target, rfl⟩ := eq_edge_of_edgeStatement? edgeEq
    exact .inr (.inr ⟨_, _, _, rfl⟩)

/-- Every accepting state is drawn. -/
theorem accepting_mem_statements {state : StateId} {kind : KindId}
    (accepted : table.kindOf state = some kind) :
    .accepting state.toNat (table.kindName kind) ∈ statements table := by
  have live : state ≠ table.error := by
    rintro rfl
    rw [Table.kindOf_error] at accepted
    cases accepted
  have node : nodeStatement? table state =
      some (.accepting state.toNat (table.kindName kind)) := by
    rw [nodeStatement?, accepted]
  rw [mem_statements_iff]
  refine ⟨state.toNat, Table.lt_stateCount_of_kindOf accepted, ?_⟩
  rw [UInt32.ofNat_toNat, stateStatements, if_neg live, node]
  exact List.mem_append_left _ (Option.mem_toList.mpr rfl)

theorem intercalate_append_nil (lineEnd : Char) (lines : List (List Char)) :
    List.intercalate [lineEnd] (lines ++ [[]]) = lines.flatMap (· ++ [lineEnd]) := by
  induction lines with
  | nil => rfl
  | cons line lines ih =>
      rw [List.cons_append, List.intercalate_cons_of_ne_nil (by simp), ih, List.flatMap_cons]

/-- Where no line runs on, the lines can be told apart in the drawing. -/
theorem splitOn_draw (inLine : ∀ line ∈ lines table, '\n' ∉ line.toList) :
    (draw table).toList.splitOn '\n' = (lines table).map String.toList ++ [[]] := by
  have drawEq : (draw table).toList =
      List.intercalate ['\n'] ((lines table).map String.toList ++ [[]]) := by
    rw [intercalate_append_nil, draw, String.toList_join]
    simp [List.flatMap_map]
  rw [drawEq]
  apply List.splitOn_intercalate
  · intro line member
    rcases List.mem_append.mp member with drawn | last
    · obtain ⟨text, textMember, rfl⟩ := List.mem_map.mp drawn
      exact inLine text textMember
    · rw [List.mem_singleton.mp last]
      exact List.not_mem_nil
  · simp

theorem wellQuoted_of_edge_mem {source target : Nat} {label : String}
    (drawn : .edge source target label ∈ statements table) : WellQuoted label.toList := by
  rcases statement_cases drawn with ⟨_, _, _, same⟩ | ⟨_, same⟩ | ⟨_, _, cls, same⟩
  · cases same
  · cases same
  · cases same
    exact wellQuoted_classLabel table cls

theorem wellQuoted_of_labels
    (named : ∀ state kind, table.kindOf state = some kind →
      WellQuoted (table.kindName kind).toList)
    {statement : Statement} (drawn : statement ∈ statements table) {label : List Char}
    (labels : Labels statement.render.toList label) : WellQuoted label := by
  rcases statement_cases drawn with ⟨state, kind, accepted, rfl⟩ | ⟨state, rfl⟩ |
    ⟨source, target, cls, rfl⟩
  · rw [labels.unique (labels_accepting _ _), wellQuoted_accepting_iff]
    exact named state kind accepted
  · exact absurd labels (not_labels_of_plain (plain_initial state))
  · rw [labels.unique (labels_edge _ _ _)]
    exact wellQuoted_classLabel table cls

theorem lineFeed_notMem_statement {statement : Statement}
    (drawn : statement ∈ statements table)
    (quoted : ∀ label, Labels statement.render.toList label → WellQuoted label) :
    '\n' ∉ statement.render.toList := by
  rcases statement_cases drawn with ⟨state, kind, _, rfl⟩ | ⟨state, rfl⟩ |
    ⟨source, target, cls, rfl⟩
  · have labels := labels_accepting state.toNat (table.kindName kind)
    exact labels.lineFeed_notMem (quoted _ labels)
  · intro member
    exact (plain_initial state '\n' member).2.2 (.inl rfl)
  · have labels := labels_edge source target (classLabel table cls)
    exact labels.lineFeed_notMem (quoted _ labels)

theorem splitOn_draw_eq
    (quoted : ∀ statement ∈ statements table, ∀ label,
      Labels statement.render.toList label → WellQuoted label) :
    (draw table).toList.splitOn '\n' =
      ["digraph state_machine \x7b".toList, "  rankdir=LR;".toList] ++
        (statements table).map (fun statement => statement.render.toList) ++
        ["\x7d".toList, []] := by
  rw [splitOn_draw]
  · simp [lines]
  · intro line member
    have framed : ∀ line ∈ ["digraph state_machine \x7b", "  rankdir=LR;", "\x7d"],
        '\n' ∉ line.toList := by
      decide +kernel
    simp only [lines, List.mem_append, List.mem_map] at member
    rcases member with (member | ⟨statement, drawn, rfl⟩) | member
    · exact framed line (List.mem_append_left _ member)
    · exact lineFeed_notMem_statement drawn (quoted statement drawn)
    · exact framed line (List.mem_append_right [_, _] member)

/-- All labels of edges are well quoted.  All labels are, and each line between
the first two and the last is one statement, exactly if the names of the
accepted kinds are well quoted as they are. -/
theorem labels_wellQuoted_iff (table : Table) :
    (∀ source target label, .edge source target label ∈ statements table →
      Labels (Statement.edge source target label).render.toList label.toList ∧
        WellQuoted label.toList) ∧
    ((∀ state kind, table.kindOf state = some kind →
        WellQuoted (table.kindName kind).toList) ↔
      (∀ statement ∈ statements table, ∀ label,
        Labels statement.render.toList label → WellQuoted label) ∧
      (draw table).toList.splitOn '\n' =
        ["digraph state_machine \x7b".toList, "  rankdir=LR;".toList] ++
          (statements table).map (fun statement => statement.render.toList) ++
          ["\x7d".toList, []]) := by
  constructor
  · intro source target label drawn
    exact ⟨labels_edge source target label, wellQuoted_of_edge_mem drawn⟩
  constructor
  · intro named
    have quoted : ∀ statement ∈ statements table, ∀ label,
        Labels statement.render.toList label → WellQuoted label :=
      fun _ drawn _ => wellQuoted_of_labels named drawn
    exact ⟨quoted, splitOn_draw_eq quoted⟩
  · rintro ⟨quoted, _⟩ state kind accepted
    have labels := labels_accepting state.toNat (table.kindName kind)
    have labelQuoted := quoted _ (accepting_mem_statements accepted) _ labels
    exact (wellQuoted_accepting_iff _ _).mp labelQuoted

/-- Parts whose start state accepts a kind named by a double quote. -/
def quoteParts : Parts where
  stateCount := 2
  classCount := 1
  classes := .blank
  next := #[1, 1]
  tokenOf := #[0, KindId.absent]
  kindNames := #["\x22"]
  start := 0
  error := 1

def quoteTable : Table where
  parts := quoteParts
  valid := Parts.valid_of_defect?_eq_none (by decide)

/-- A double quote in the name of a kind ends the label early. -/
theorem exists_label_not_wellQuoted :
    ∃ statement ∈ statements quoteTable, ∃ label,
      Labels statement.render.toList label ∧ ¬ WellQuoted label := by
  refine ⟨.accepting 0 "\x22", by decide +kernel, _, labels_accepting 0 "\x22", ?_⟩
  rw [wellQuoted_accepting_iff]
  have quote : "\x22".toList = ['\x22'] := by decide +kernel
  rw [quote]
  intro quoted
  cases quoted with
  | plain isPlain _ => exact isPlain.1 rfl

end Graph

end MaximalMunch
