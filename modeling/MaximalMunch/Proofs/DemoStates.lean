import MaximalMunch.DemoGrammar
import MaximalMunch.Proofs.Edges

/-!
# The states of the demonstration grammar

The sketch of the grammar hands out numbers for states and kinds as it goes.
Here they have names, and each state has its rules written out at once.  From
there on, where a character leads is a statement about the character alone.
-/

namespace MaximalMunch

namespace DemoGrammar

inductive Category
  | integer
  | float
  | identifier
  | blank
  | lineEnd
  | lineComment
  | blockComment
  | operator
  deriving DecidableEq, Repr

def IsDigit (c : Char) : Prop :=
  '0' ≤ c ∧ c ≤ '9'

def IsLetter (c : Char) : Prop :=
  ∃ range ∈ letterRanges, range.1 ≤ c ∧ c ≤ range.2

namespace Category

def all : List Category :=
  [integer, float, identifier, blank, lineEnd, lineComment, blockComment, operator]

def name : Category → String
  | integer => "INTEGER"
  | float => "FLOAT"
  | identifier => "IDENTIFIER"
  | blank => "WHITESPACE"
  | lineEnd => "NEWLINE"
  | lineComment => "LINE_COMMENT"
  | blockComment => "BLOCK_COMMENT"
  | operator => "OPERATOR"

def kind : Category → KindId
  | integer => 0
  | float => 1
  | identifier => 2
  | blank => 3
  | lineEnd => 4
  | lineComment => 5
  | blockComment => 6
  | operator => 7

@[simp]
theorem kind_inj {category other : Category} :
    category.kind = other.kind ↔ category = other := by
  cases category <;> cases other <;> decide

theorem kind_ne_absent (category : Category) : category.kind ≠ KindId.absent := by
  cases category <;> decide

theorem exists_kind_eq {kind : KindId} (few : kind.toNat < all.length) :
    ∃ category : Category, kind = category.kind := by
  have known : ∀ number < all.length, ∃ category ∈ all, UInt32.ofNat number = category.kind := by
    decide
  obtain ⟨category, _, same⟩ := known kind.toNat few
  exact ⟨category, by rwa [UInt32.ofNat_toNat] at same⟩

end Category

def integer : StateId := 2

/-- Behind the decimal point. -/
def point : StateId := 3

def fraction : StateId := 4

def identifier : StateId := 5

def blank : StateId := 6

def lineFeed : StateId := 7

def carriageReturn : StateId := 8

def slash : StateId := 9

/-- Behind an operator that nothing can follow. -/
def complete : StateId := 10

def line : StateId := 11

def block : StateId := 12

/-- In a block comment, behind a star. -/
def star : StateId := 13

def closed : StateId := 14

/-- Behind the first character of the operators of two characters. -/
def opened (index : Nat) : StateId := UInt32.ofNat (15 + index)

section Rules

open Builder

/-- The edges on the first characters of the operators of two characters. -/
def openings : List Edge :=
  doubleOperators.zipIdx.map fun (operator, index) =>
    ⟨operator.1, operator.1, opened index⟩

def startEdges : List Edge :=
  edgesOver [('0', '9')] integer ++ edgesOver letterRanges identifier ++ edgesOn " \t" blank ++
    edgesOn "\n" lineFeed ++ edgesOn "\r" carriageReturn ++ edgesOn "/" slash ++
    edgesOn singleOperators complete ++ openings

/-- The rules of all states, in the order of their numbers. -/
def stateRules : List StateRules :=
  ([{ edges := startEdges.toArray },
    {},
    { edges := (edgesOver [('0', '9')] integer ++ edgesOn "." point).toArray
      accepts := some Category.integer.kind },
    { edges := (edgesOver [('0', '9')] fraction).toArray },
    { edges := (edgesOver [('0', '9')] fraction).toArray
      accepts := some Category.float.kind },
    { edges := (edgesOver letterRanges identifier ++ edgesOver [('0', '9')] identifier).toArray
      accepts := some Category.identifier.kind },
    { edges := (edgesOn " \t" blank).toArray
      accepts := some Category.blank.kind },
    { accepts := some Category.lineEnd.kind },
    { edges := (edgesOn "\n" lineFeed).toArray
      accepts := some Category.lineEnd.kind },
    { edges := (edgesOn "=" complete ++ edgesOn "/" line ++ edgesOn "*" block).toArray
      accepts := some Category.operator.kind },
    { accepts := some Category.operator.kind },
    { edges := (edgesOn "\r\n" Builder.error).toArray
      fallback := some line
      accepts := some Category.lineComment.kind },
    { edges := (edgesOn "*" star).toArray
      fallback := some block },
    { edges := (edgesOn "/" closed ++ edgesOn "*" star).toArray
      fallback := some block },
    { accepts := some Category.blockComment.kind }] : List StateRules) ++
  doubleOperators.map fun operator =>
    { edges := (edgesOn operator.2 complete).toArray
      accepts := some Category.operator.kind }

section Openings

variable {index : Nat} {operator : Char × String}
  (entry : doubleOperators[index]? = some operator)
include entry

theorem toNat_opened : (opened index).toNat = 15 + index := by
  have indexLt : index < 8 := (List.getElem?_eq_some_iff.mp entry).1
  exact UInt32.toNat_ofNat_of_lt' (by simp only [UInt32.size]; omega)

theorem opened_ne_error : opened index ≠ Builder.error := by
  intro same
  have numberEq := congrArg UInt32.toNat same
  rw [toNat_opened entry, show Builder.error.toNat = 1 from rfl] at numberEq
  omega

theorem stateRules_opened :
    stateRules[(opened index).toNat]? =
      some { edges := (edgesOn operator.2 complete).toArray
             accepts := some Category.operator.kind } := by
  rw [toNat_opened entry, stateRules, List.getElem?_append_right (Nat.le_add_right 15 index)]
  simp [entry]

end Openings

theorem along_openings_iff {c : Char} {target : StateId} :
    Along openings c target ↔
      ∃ index seconds, doubleOperators[index]? = some (c, seconds) ∧ target = opened index := by
  simp only [Along, openings, List.mem_map, Prod.exists, List.mk_mem_zipIdx_iff_getElem?]
  constructor
  · rintro ⟨_, ⟨first, seconds, index, entry, rfl⟩, covered, _, leads⟩
    obtain rfl := covers_single_iff.mp covered
    exact ⟨index, seconds, entry, leads⟩
  · rintro ⟨index, seconds, entry, leads⟩
    exact ⟨_, ⟨c, seconds, index, entry, rfl⟩, covers_single_iff.mpr rfl,
      opened_ne_error entry, leads⟩

theorem stateRules_apart :
    ∀ rules ∈ stateRules, rules.edges.toList.Pairwise Edge.Apart := by
  decide +kernel

end Rules

/-- The table was built from a description with the rules of all states. -/
def Built (table : Table) : Prop :=
  ∃ builder : Builder, builder.build = .ok table ∧ builder.states.toList = stateRules ∧
    builder.kindNames.toList = Category.all.map Category.name

/-- The sketch has no defect, makes these rules and names, and compiles. -/
theorem exists_built : ∃ table, DemoGrammar.table = .ok table ∧ Built table := by
  have builds : DemoGrammar.table.toOption.isSome = true := by decide +kernel
  have described : DemoGrammar.builder.toOption.map (fun builder =>
      (builder.states.toList, builder.kindNames.toList)) =
        some (stateRules, Category.all.map Category.name) := by
    decide +kernel
  cases sketched : DemoGrammar.builder with
  | error defect =>
      rw [sketched] at described
      cases described
  | ok builder =>
      rw [sketched] at described
      obtain ⟨statesEq, namesEq⟩ := Prod.mk.inj (Option.some.inj described)
      cases built : DemoGrammar.table with
      | error defect =>
          rw [built] at builds
          cases builds
      | ok table =>
          refine ⟨table, rfl, builder, ?_, statesEq, namesEq⟩
          rwa [DemoGrammar.table, sketched] at built

section Automaton

variable {table : Table} {state : StateId} {rules : StateRules} {category : Category}

namespace Built

theorem start_eq (built : Built table) : table.start = Builder.start := by
  obtain ⟨builder, builds, _⟩ := built
  exact Builder.start_of_build builds

theorem kinds_eq (built : Built table) :
    table.kinds = Category.all.map fun category => (category.kind, category.name) := by
  obtain ⟨builder, builds, _, namesEq⟩ := built
  rw [Builder.kinds_of_build builds, namesEq]
  decide

theorem kindCount_eq (built : Built table) : table.kindCount = Category.all.length := by
  have counted := congrArg List.length built.kinds_eq
  rwa [Table.kinds, List.length_map, List.length_zipIdx, Array.length_toList,
    List.length_map] at counted

theorem kindOf_eq_some_iff (built : Built table)
    (known : stateRules[state.toNat]? = some rules) :
    table.kindOf state = some category.kind ↔ rules.accepts = some category.kind := by
  obtain ⟨builder, builds, statesEq, _⟩ := built
  rw [← statesEq, Array.getElem?_toList] at known
  rw [Builder.kindOf_of_build builds known, Option.filter_eq_some_iff]
  simp [category.kind_ne_absent]

theorem leads_iff (built : Built table) (known : stateRules[state.toNat]? = some rules)
    (inner : state ≠ Builder.error) {c : Char} {target : StateId} :
    table.Leads state c target ↔
      Builder.Along rules.edges.toList c target ∨
        Builder.Uncovered rules.edges.toList c ∧
          Builder.FallsTo rules.fallback target := by
  obtain ⟨builder, builds, statesEq, _⟩ := built
  have apart := stateRules_apart rules (List.mem_of_getElem? known)
  rw [← statesEq, Array.getElem?_toList] at known
  exact Builder.leads_iff_of_build builds known inner apart

end Built

section Leads

variable (built : Built table) {c : Char} {target : StateId}
include built

theorem leads_integer_iff :
    table.Leads integer c target ↔ IsDigit c ∧ target = integer ∨ c = '.' ∧ target = point := by
  rw [built.leads_iff rfl (by decide)]
  simp +decide [IsDigit]

theorem leads_point_iff : table.Leads point c target ↔ IsDigit c ∧ target = fraction := by
  rw [built.leads_iff rfl (by decide)]
  simp +decide [IsDigit]

theorem leads_fraction_iff : table.Leads fraction c target ↔ IsDigit c ∧ target = fraction := by
  rw [built.leads_iff rfl (by decide)]
  simp +decide [IsDigit]

theorem leads_identifier_iff :
    table.Leads identifier c target ↔ (IsLetter c ∨ IsDigit c) ∧ target = identifier := by
  rw [built.leads_iff rfl (by decide)]
  simp +decide [IsDigit, IsLetter, or_and_right]

theorem leads_blank_iff :
    table.Leads blank c target ↔ (c = ' ' ∨ c = '\t') ∧ target = blank := by
  rw [built.leads_iff rfl (by decide)]
  simp +decide

theorem not_leads_lineFeed : ¬ table.Leads lineFeed c target := by
  rw [built.leads_iff rfl (by decide)]
  simp

theorem leads_carriageReturn_iff :
    table.Leads carriageReturn c target ↔ c = '\n' ∧ target = lineFeed := by
  rw [built.leads_iff rfl (by decide)]
  simp +decide

theorem leads_slash_iff :
    table.Leads slash c target ↔
      c = '=' ∧ target = complete ∨ c = '/' ∧ target = line ∨ c = '*' ∧ target = block := by
  rw [built.leads_iff rfl (by decide)]
  simp +decide

theorem not_leads_complete : ¬ table.Leads complete c target := by
  rw [built.leads_iff rfl (by decide)]
  simp

theorem leads_line_iff :
    table.Leads line c target ↔ (c ≠ '\r' ∧ c ≠ '\n') ∧ target = line := by
  rw [built.leads_iff rfl (by decide)]
  simp +decide

theorem leads_block_iff :
    table.Leads block c target ↔ c = '*' ∧ target = star ∨ c ≠ '*' ∧ target = block := by
  rw [built.leads_iff rfl (by decide)]
  simp +decide

theorem leads_star_iff :
    table.Leads star c target ↔
      c = '/' ∧ target = closed ∨ c = '*' ∧ target = star ∨
        (c ≠ '/' ∧ c ≠ '*') ∧ target = block := by
  rw [built.leads_iff rfl (by decide)]
  simp +decide [or_assoc]

theorem not_leads_closed : ¬ table.Leads closed c target := by
  rw [built.leads_iff rfl (by decide)]
  simp

theorem leads_opened_iff {index : Nat} {operator : Char × String}
    (entry : doubleOperators[index]? = some operator) :
    table.Leads (opened index) c target ↔
      c ∈ operator.2.toList ∧ target = complete := by
  rw [built.leads_iff (stateRules_opened entry) (opened_ne_error entry)]
  simp +decide

theorem leads_start_iff :
    table.Leads Builder.start c target ↔
      IsDigit c ∧ target = integer ∨ IsLetter c ∧ target = identifier ∨
      (c = ' ' ∨ c = '\t') ∧ target = blank ∨ c = '\n' ∧ target = lineFeed ∨
      c = '\r' ∧ target = carriageReturn ∨ c = '/' ∧ target = slash ∨
      c ∈ singleOperators.toList ∧ target = complete ∨
      ∃ index seconds, doubleOperators[index]? = some (c, seconds) ∧
        target = opened index := by
  rw [built.leads_iff rfl (by decide)]
  simp +decide [startEdges, along_openings_iff, IsDigit, IsLetter]

end Leads

end Automaton

end DemoGrammar

end MaximalMunch
