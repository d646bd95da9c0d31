import MaximalMunch.Proofs.Cuts
import MaximalMunch.Table.Basic

/-!
# What an automaton recognizes

A word is accepted when the run over it never lands in the error state and ends
in an accepting state.  Longest match is a relation between the text ahead and
the word that is taken from its front; repeating it relates a whole text to its
tokens.  Nothing here mentions a walk: these are the statements that scanning
is measured against.
-/

namespace MaximalMunch

namespace Table

variable (table : Table)

/-- The state in which the run over a word ends, unless it lands in the error
state on the way. -/
def run? (state : StateId) : List Char → Option StateId
  | [] => some state
  | c :: rest =>
      let target := table.transition state c
      if target = table.error then none else run? target rest

/-- The nonempty word is recognized as `kind`. -/
def Accepts (word : List Char) (kind : KindId) : Prop :=
  word ≠ [] ∧ (table.run? table.start word).bind table.kindOf = some kind

instance (word : List Char) (kind : KindId) : Decidable (table.Accepts word kind) :=
  inferInstanceAs (Decidable (_ ∧ _))

/-- The run over the text visits no accepting state before it lands in the
error state or the text ends. -/
def Barren : StateId → List Char → Prop
  | _, [] => True
  | state, c :: rest =>
      table.transition state c = table.error ∨
        table.isAccepting (table.transition state c) = false ∧
          Barren (table.transition state c) rest

/-- The number names a state that is neither accepting nor the error state. -/
structure IsIdle (state : StateId) : Prop where
  known : state.toNat < table.stateCount
  rejecting : table.isAccepting state = false
  not_error : state ≠ table.error

instance (state : StateId) : Decidable (table.IsIdle state) :=
  decidable_of_iff
    (state.toNat < table.stateCount ∧ table.isAccepting state = false ∧
      state ≠ table.error)
    ⟨fun ⟨known, rejecting, not_error⟩ => ⟨known, rejecting, not_error⟩,
      fun ⟨known, rejecting, not_error⟩ => ⟨known, rejecting, not_error⟩⟩

/-- The number of states that are neither accepting nor the error state. -/
def idleCount : Nat :=
  (List.range table.stateCount).countP fun state => table.IsIdle (UInt32.ofNat state)

variable {table}

theorem isAccepting_eq_isSome_kindOf (state : StateId) :
    table.isAccepting state = (table.kindOf state).isSome := by
  simp only [isAccepting, isAccepting?, kindOf, kindOf?]
  cases table.storedKind? state with
  | none => rfl
  | some kind => by_cases absent : kind = KindId.absent <;> simp [absent]

theorem kindOf_eq_none_iff {state : StateId} :
    table.kindOf state = none ↔ table.isAccepting state = false := by
  simp [isAccepting_eq_isSome_kindOf]

theorem isAccepting_iff {state : StateId} :
    table.isAccepting state = true ↔ ∃ kind, table.kindOf state = some kind := by
  simp [isAccepting_eq_isSome_kindOf, Option.isSome_iff_exists]

theorem kindOf_error : table.kindOf table.error = none := by
  have stored : table.storedKind? table.error = some KindId.absent := table.valid.error_rejects
  simp [kindOf, kindOf?, stored]

theorem lt_stateCount_of_kindOf {state : StateId} {kind : KindId}
    (accepted : table.kindOf state = some kind) : state.toNat < table.stateCount := by
  simp only [kindOf, kindOf?, Option.join_eq_some_iff, Option.map_eq_some_iff] at accepted
  obtain ⟨stored, found, _⟩ := accepted
  have inside := (Array.getElem?_eq_some_iff.mp found).1
  rw [table.valid.tokenOf_size] at inside
  exact inside

theorem lt_kindCount_of_kindOf {state : StateId} {kind : KindId}
    (accepted : table.kindOf state = some kind) : kind.toNat < table.kindCount := by
  simp only [kindOf, kindOf?, storedKind?, Option.join_eq_some_iff,
    Option.map_eq_some_iff] at accepted
  obtain ⟨stored, found, equal⟩ := accepted
  have present : stored ≠ KindId.absent := by
    intro absent
    simp [absent] at equal
  simp only [if_neg present, Option.some.injEq] at equal
  subst equal
  have member : stored ∈ table.parts.tokenOf := Array.mem_of_getElem? found
  exact (table.valid.tokenOf_known stored member).resolve_left present

/-- With few enough kinds, none of them is the unrecognized kind. -/
theorem kindOf_ne_unrecognized (fewKinds : table.kindCount ≤ UInt32.size - 2)
    {state : StateId} {kind : KindId} (accepted : table.kindOf state = some kind) :
    kind ≠ KindId.unrecognized := by
  intro unrecognized
  have named := lt_kindCount_of_kindOf accepted
  have value : kind.toNat = UInt32.size - 2 := by
    subst unrecognized
    rfl
  omega

theorem transition_lt (state : StateId) (c : Char) :
    (table.transition state c).toNat < table.stateCount := by
  rw [transition, transition?, transitionOn?]
  cases found : table.parts.next[state.toNat * table.classCount +
      (table.classOf c).toNat]? with
  | none => exact UInt32.lt_iff_toNat_lt.mp table.valid.error_lt
  | some target =>
      exact UInt32.lt_iff_toNat_lt.mp
        (table.valid.next_lt target (Array.mem_of_getElem? found))

theorem run?_append (state : StateId) (word more : List Char) :
    table.run? state (word ++ more) =
      (table.run? state word).bind fun target => table.run? target more := by
  induction word generalizing state with
  | nil => rfl
  | cons c word ih =>
      simp only [List.cons_append, run?]
      split
      · rfl
      · exact ih (table.transition state c)

theorem run?_singleton {state : StateId} {c : Char}
    (lives : table.transition state c ≠ table.error) :
    table.run? state [c] = some (table.transition state c) := by
  simp [run?, lives]

/-- A text is barren when no leading word of it leads to an accepting state. -/
theorem barren_iff {state : StateId} {text : List Char} :
    table.Barren state text ↔
      ∀ word target, word ≠ [] → word <+: text → table.run? state word = some target →
        table.isAccepting target = false := by
  induction text generalizing state with
  | nil =>
      simp only [Barren, true_iff, List.prefix_nil]
      intro word target nonempty nil
      exact absurd nil nonempty
  | cons c rest ih =>
      constructor
      · intro barren word target nonempty leads runs
        cases word with
        | nil => exact absurd rfl nonempty
        | cons d word =>
            obtain ⟨rfl, leadsRest⟩ := List.cons_prefix_cons.mp leads
            simp only [run?] at runs
            split at runs
            case isTrue => cases runs
            case isFalse lives =>
              obtain ⟨quiet, barrenRest⟩ := barren.resolve_left lives
              by_cases last : word = []
              · subst last
                simp only [run?, Option.some.injEq] at runs
                exact runs ▸ quiet
              · exact ih.mp barrenRest word target last leadsRest runs
      · intro quiet
        by_cases lands : table.transition state c = table.error
        · exact .inl lands
        · refine .inr ⟨?_, ih.mpr ?_⟩
          · exact quiet [c] _ (List.cons_ne_nil c []) (by simp) (run?_singleton lands)
          · intro word target _ leads runs
            apply quiet (c :: word) target (List.cons_ne_nil c word)
              (List.cons_prefix_cons.mpr ⟨rfl, leads⟩)
            simpa [run?, lands] using runs

theorem accepts_iff {word : List Char} {kind : KindId} :
    table.Accepts word kind ↔
      word ≠ [] ∧ ∃ state, table.run? table.start word = some state ∧
        table.kindOf state = some kind := by
  simp only [Accepts, Option.bind_eq_some_iff]

theorem Accepts.kind_unique {word : List Char} {kind other : KindId}
    (first : table.Accepts word kind) (second : table.Accepts word other) :
    kind = other :=
  Option.some.inj (first.2.symm.trans second.2)

/-- Behind a point from which the text is barren no accepted word ends. -/
theorem Barren.not_accepts (reached : List Char) {longer ahead : List Char}
    {state : StateId} {kind : KindId}
    (runs : table.run? table.start reached = some state)
    (barren : table.Barren state ahead)
    (behind : longer ≠ []) (leads : longer <+: ahead) :
    ¬ table.Accepts (reached ++ longer) kind := by
  intro accepted
  obtain ⟨_, target, runsOn, kindEq⟩ := accepts_iff.mp accepted
  rw [run?_append, runs, Option.bind_some] at runsOn
  have quiet := barren_iff.mp barren longer target behind leads runsOn
  rw [← kindOf_eq_none_iff, kindEq] at quiet
  cases quiet

end Table

end MaximalMunch
