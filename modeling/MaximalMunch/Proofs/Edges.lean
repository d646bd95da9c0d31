import MaximalMunch.Proofs.Meaning
import MaximalMunch.Proofs.Recognition
import Mathlib.Data.Char
import Mathlib.Data.List.Pairwise

/-!
# Recognition along edges

What is recognized from a state depends on the states that its characters lead
to.  In a table that was built, characters lead where the edges and the fallback
of the state say, and no order matters as long as the edges are apart.
-/

namespace MaximalMunch

namespace Table

variable (table : Table)

/-- The run from the state over the word never lands in the error state and ends
in a state that accepts `kind`. -/
def Recognizes (state : StateId) (word : List Char) (kind : KindId) : Prop :=
  (table.run? state word).bind table.kindOf = some kind

/-- The character leads to the target, which is not the error state. -/
def Leads (state : StateId) (c : Char) (target : StateId) : Prop :=
  table.transition state c = target ∧ target ≠ table.error

variable {table} {state : StateId} {kind : KindId}

theorem recognizes_nil_iff : table.Recognizes state [] kind ↔ table.kindOf state = some kind :=
  Iff.rfl

theorem recognizes_cons_iff {c : Char} {word : List Char} :
    table.Recognizes state (c :: word) kind ↔
      ∃ target, table.Leads state c target ∧ table.Recognizes target word kind := by
  simp only [Recognizes, Leads, run?]
  constructor
  · intro recognized
    split at recognized
    case isTrue => cases recognized
    case isFalse lives => exact ⟨_, ⟨rfl, lives⟩, recognized⟩
  · rintro ⟨target, ⟨rfl, lives⟩, recognized⟩
    rw [if_neg lives]
    exact recognized

/-- From a state that can only be kept, the words of the characters that keep it
are recognized. -/
theorem recognizes_iff_of_loop {keeps : Char → Prop}
    (loops : ∀ c target, table.Leads state c target ↔ keeps c ∧ target = state)
    (word : List Char) :
    table.Recognizes state word kind ↔
      table.kindOf state = some kind ∧ ∀ c ∈ word, keeps c := by
  induction word with
  | nil => simp [recognizes_nil_iff]
  | cons c word ih =>
      rw [recognizes_cons_iff, List.forall_mem_cons]
      simp only [loops]
      constructor
      · rintro ⟨_, ⟨kept, rfl⟩, recognized⟩
        obtain ⟨accepted, restKept⟩ := ih.mp recognized
        exact ⟨accepted, kept, restKept⟩
      · rintro ⟨accepted, kept, restKept⟩
        exact ⟨state, ⟨kept, rfl⟩, ih.mpr ⟨accepted, restKept⟩⟩

/-- From a state that cannot be left, only the empty word is recognized. -/
theorem recognizes_iff_of_stuck (stuck : ∀ c target, ¬ table.Leads state c target)
    (word : List Char) :
    table.Recognizes state word kind ↔ table.kindOf state = some kind ∧ word = [] := by
  cases word with
  | nil => simp [recognizes_nil_iff]
  | cons c word => simp [recognizes_cons_iff, stuck]

end Table

/-- No character is covered by both edges. -/
def Edge.Apart (first second : Edge) : Prop :=
  first.hi < second.lo ∨ second.hi < first.lo

instance (first second : Edge) : Decidable (first.Apart second) :=
  inferInstanceAs (Decidable (_ ∨ _))

instance : Std.Symm Edge.Apart where
  symm _ _ := Or.symm

theorem Edge.Apart.not_covers {first second : Edge} (apart : first.Apart second) {c : Char}
    (covered : first.lo ≤ c ∧ c ≤ first.hi) : ¬ (second.lo ≤ c ∧ c ≤ second.hi) := by
  rintro ⟨loLe, leHi⟩
  rcases apart with before | behind
  · exact absurd (lt_of_lt_of_le before loLe) (not_lt_of_ge covered.2)
  · exact absurd (lt_of_lt_of_le behind covered.1) (not_lt_of_ge leHi)

namespace Builder

/-- Some edge of the list leads the character to the target, and not to the error
state. -/
def Along (edges : List Edge) (c : Char) (target : StateId) : Prop :=
  ∃ edge ∈ edges, (edge.lo ≤ c ∧ c ≤ edge.hi) ∧ edge.target ≠ error ∧ target = edge.target

/-- No edge of the list covers the character. -/
def Uncovered (edges : List Edge) (c : Char) : Prop :=
  ∀ edge ∈ edges, ¬ (edge.lo ≤ c ∧ c ≤ edge.hi)

/-- The fallback is the target, and not the error state. -/
def FallsTo (fallback : Option StateId) (target : StateId) : Prop :=
  fallback = some target ∧ target ≠ error

/-- An edge to the same target for each of the ranges. -/
def edgesOver (ranges : List (Char × Char)) (goal : StateId) : List Edge :=
  ranges.map fun range => ⟨range.1, range.2, goal⟩

/-- An edge to the same target for each of the characters. -/
def edgesOn (chars : String) (goal : StateId) : List Edge :=
  chars.toList.map fun c => ⟨c, c, goal⟩

section Lists

variable {edges more : List Edge} {ranges : List (Char × Char)} {chars : String}
  {goal target : StateId} {c : Char}

theorem covers_single_iff {single : Char} : single ≤ c ∧ c ≤ single ↔ c = single := by
  rw [and_comm, ← le_antisymm_iff]

@[simp]
theorem not_along_nil : ¬ Along [] c target := by
  simp [Along]

@[simp]
theorem along_append_iff :
    Along (edges ++ more) c target ↔ Along edges c target ∨ Along more c target := by
  simp only [Along, List.mem_append, or_and_right, exists_or]

@[simp]
theorem along_edgesOver_iff :
    Along (edgesOver ranges goal) c target ↔
      (∃ range ∈ ranges, range.1 ≤ c ∧ c ≤ range.2) ∧ goal ≠ error ∧ target = goal := by
  simp only [Along, edgesOver, List.mem_map, exists_exists_and_eq_and]
  constructor
  · rintro ⟨range, member, covered, rest⟩
    exact ⟨⟨range, member, covered⟩, rest⟩
  · rintro ⟨⟨range, member, covered⟩, rest⟩
    exact ⟨range, member, covered, rest⟩

@[simp]
theorem along_edgesOn_iff :
    Along (edgesOn chars goal) c target ↔ c ∈ chars.toList ∧ goal ≠ error ∧ target = goal := by
  simp only [Along, edgesOn, List.mem_map, exists_exists_and_eq_and, covers_single_iff]
  constructor
  · rintro ⟨_, member, rfl, rest⟩
    exact ⟨member, rest⟩
  · rintro ⟨member, rest⟩
    exact ⟨c, member, rfl, rest⟩

@[simp]
theorem uncovered_append_iff :
    Uncovered (edges ++ more) c ↔ Uncovered edges c ∧ Uncovered more c := by
  simp only [Uncovered, List.forall_mem_append]

@[simp]
theorem uncovered_edgesOn_iff : Uncovered (edgesOn chars goal) c ↔ c ∉ chars.toList := by
  simp only [Uncovered, edgesOn, List.forall_mem_map, covers_single_iff]
  exact ⟨fun other member => other c member rfl, fun missing _ member same =>
    missing (same ▸ member)⟩

@[simp]
theorem fallsTo_some_iff : FallsTo (some goal) target ↔ goal ≠ error ∧ target = goal := by
  constructor
  · rintro ⟨⟨⟩, lives⟩
    exact ⟨lives, rfl⟩
  · rintro ⟨lives, rfl⟩
    exact ⟨rfl, lives⟩

@[simp]
theorem not_fallsTo_none : ¬ FallsTo none target := by
  simp [FallsTo]

end Lists

variable {builder : Builder} {table : Table} {state : StateId} {rules : StateRules}

/-- Of edges that are apart, at most one covers a character. -/
theorem edgeTarget?_eq_some_iff (apart : rules.edges.toList.Pairwise Edge.Apart) {c : Char}
    {target : StateId} :
    rules.edgeTarget? c.toNat = some target ↔
      ∃ edge ∈ rules.edges.toList, (edge.lo ≤ c ∧ c ≤ edge.hi) ∧ edge.target = target := by
  simp only [StateRules.edgeTarget?, covers_toNat, Option.map_eq_some_iff]
  constructor
  · rintro ⟨edge, found, rfl⟩
    exact ⟨edge, List.mem_of_find?_eq_some found, by simpa using List.find?_some found, rfl⟩
  · rintro ⟨edge, member, covered, rfl⟩
    cases found : rules.edges.toList.find? fun edge => decide (edge.lo ≤ c ∧ c ≤ edge.hi) with
    | none => exact absurd covered (by simpa using List.find?_eq_none.mp found edge member)
    | some first =>
        -- The search may have stopped at an earlier edge, but that one is not apart.
        refine ⟨first, rfl, ?_⟩
        have firstCovers : first.lo ≤ c ∧ c ≤ first.hi := by
          simpa using List.find?_some found
        by_contra different
        have distinct : first ≠ edge := fun same => different (congrArg Edge.target same)
        have firstApart : first.Apart edge :=
          apart.forall (List.mem_of_find?_eq_some found) member distinct
        exact firstApart.not_covers firstCovers covered

theorem edgeTarget?_eq_none_iff {c : Char} :
    rules.edgeTarget? c.toNat = none ↔ Uncovered rules.edges.toList c := by
  simp only [StateRules.edgeTarget?, covers_toNat, Option.map_eq_none_iff, List.find?_eq_none,
    decide_eq_true_eq, Uncovered]

/-- A character leads along the edge that covers it, and to the fallback when no
edge does. -/
theorem leads_iff_of_build (built : builder.build = .ok table)
    (known : builder.states[state.toNat]? = some rules) (inner : state ≠ error)
    (apart : rules.edges.toList.Pairwise Edge.Apart) {c : Char} {target : StateId} :
    table.Leads state c target ↔
      Along rules.edges.toList c target ∨
        Uncovered rules.edges.toList c ∧ FallsTo rules.fallback target := by
  have goes : table.transition state c =
      ((rules.edgeTarget? c.toNat).or rules.fallback).getD error := by
    have apartFromError : state.toNat ≠ error.toNat := fun same =>
      inner (UInt32.toNat_inj.mp same)
    rw [Table.transition, transition?_of_build built known, Option.getD_some, targetFrom,
      if_neg apartFromError, StateRules.target?, Option.bind_some]
  rw [Table.Leads, error_of_build built, goes]
  have alongIff : Along rules.edges.toList c target ↔
      rules.edgeTarget? c.toNat = some target ∧ target ≠ error := by
    rw [edgeTarget?_eq_some_iff apart]
    constructor
    · rintro ⟨edge, member, covered, lives, rfl⟩
      exact ⟨⟨edge, member, covered, rfl⟩, lives⟩
    · rintro ⟨⟨edge, member, covered, rfl⟩, lives⟩
      exact ⟨edge, member, covered, lives, rfl⟩
  rw [alongIff, ← edgeTarget?_eq_none_iff]
  cases rules.edgeTarget? c.toNat with
  | some next => simp
  | none =>
      cases rules.fallback with
      | some next => simp [FallsTo]
      | none => simp [eq_comm]

end Builder

end MaximalMunch
