import MaximalMunch.Proofs.History

/-!
# Carrying out operations

Each operation adds to a description what it says, and a description in which
nothing is left dangling says exactly what its operations say.  An operation may
name a state that does not exist yet.  The description remembers that, and no later
operation makes up for it, so nothing is left dangling exactly when each operation
started from a state that existed when its turn came.
-/

namespace MaximalMunch

namespace Builder

/-- What a description says about a state, which is nothing when there is no
such state. -/
def rulesAt (builder : Builder) (state : StateId) : StateRules :=
  builder.states[state.toNat]?.getD {}

/-- The description says what the operations say. -/
structure Records (builder : Builder) (operations : List Operation) : Prop where
  states_size : builder.states.size = stateTotal operations
  kindNames_eq : builder.kindNames.toList = registeredNames operations
  edges_eq : ∀ state, (builder.rulesAt state).edges.toList = edgesOf state operations
  fallback_eq : ∀ state, (builder.rulesAt state).fallback = lastFallback? state operations
  accepts_eq : ∀ state, (builder.rulesAt state).accepts = lastKind? state operations

variable {builder : Builder} {operations : List Operation} {operation : Operation}
  {source : StateId} {change : StateRules → StateRules}

/-- Two changes of one state are one change. -/
theorem modifyState_modifyState (builder : Builder) (source : StateId)
    (change later : StateRules → StateRules) :
    (builder.modifyState source change).modifyState source later =
      builder.modifyState source fun rules => later (change rules) := by
  by_cases known : source.toNat < builder.states.size
  · simp only [modifyState, known, if_true, Array.size_modify]
    congr 1
    ext index indexLt
    · simp
    · simp only [Array.getElem_modify]
      split <;> rfl
  · cases dangling : builder.dangling <;> simp [modifyState, known, dangling]

@[simp]
theorem size_modifyState (builder : Builder) (source : StateId)
    (change : StateRules → StateRules) :
    (builder.modifyState source change).states.size = builder.states.size := by
  rw [modifyState]
  split
  · exact Array.size_modify
  · rfl

/-- Only a change of a missing state leaves something dangling. -/
theorem dangling_modifyState_eq_none_iff :
    (builder.modifyState source change).dangling = none ↔
      builder.dangling = none ∧ source.toNat < builder.states.size := by
  by_cases known : source.toNat < builder.states.size
  · simp [modifyState, known]
  · simp [modifyState, known]

theorem rulesAt_modifyState (known : source.toNat < builder.states.size) (state : StateId) :
    (builder.modifyState source change).rulesAt state =
      if source = state then change (builder.rulesAt state) else builder.rulesAt state := by
  rw [modifyState, if_pos known, rulesAt, rulesAt, Array.getElem?_modify]
  by_cases same : source = state
  · subst same
    simp [Array.getElem?_eq_getElem known]
  · have apart : source.toNat ≠ state.toNat := fun equal => same (UInt32.toNat_inj.mp equal)
    simp [same, apart]

theorem rulesAt_addStateWith (builder : Builder) (rules : StateRules) (state : StateId) :
    (builder.addStateWith rules).2.rulesAt state =
      if state.toNat = builder.states.size then rules else builder.rulesAt state := by
  rw [addStateWith, rulesAt, rulesAt, Array.getElem?_push]
  split <;> rfl

theorem rulesAt_of_size_le {state : StateId} (missing : builder.states.size ≤ state.toNat) :
    builder.rulesAt state = {} := by
  rw [rulesAt, Array.getElem?_eq_none missing, Option.getD_none]

theorem foldl_on (builder : Builder) (source target : StateId) (c : Char)
    (chars : List Char) :
    (c :: chars).foldl (fun builder c => builder.on source c target) builder =
      builder.modifyState source fun rules =>
        { rules with
          edges := rules.edges ++ ((c :: chars).map fun c => ⟨c, c, target⟩).toArray } := by
  induction chars generalizing builder c with
  | nil => simp [on, onRange]
  | cons second chars ih =>
      rw [List.foldl_cons, ih, on, onRange, modifyState_modifyState]
      simp

/-- The edges for several characters are added in one change, and nothing
changes when there are no characters. -/
theorem onAny_eq (builder : Builder) (source : StateId) (chars : String)
    (target : StateId) :
    chars.toList = [] ∧ builder.onAny source chars target = builder ∨
      builder.onAny source chars target = builder.modifyState source fun rules =>
        { rules with
          edges := rules.edges ++ (chars.toList.map fun c => ⟨c, c, target⟩).toArray } := by
  rw [onAny]
  cases chars.toList with
  | nil => exact .inl ⟨rfl, rfl⟩
  | cons c chars => exact .inr (foldl_on builder source target c chars)

theorem perform_kind (builder : Builder) (name : String) :
    builder.perform [.kind name] =
      { builder with
        kindNames :=
          if name = KindId.unrecognizedName ∨ name ∈ builder.kindNames then
            builder.kindNames
          else
            builder.kindNames.push name } := by
  rw [perform, List.foldl_cons, List.foldl_nil, apply, addKind]
  by_cases taken : name = KindId.unrecognizedName ∨ name ∈ builder.kindNames
  · rw [if_pos taken, if_pos taken]
    rfl
  · rw [if_neg taken, if_neg taken]
    rfl

theorem size_perform_singleton (builder : Builder) (operation : Operation) :
    (builder.perform [operation]).states.size = builder.states.size + operation.stateGain := by
  cases operation with
  | kind name => rw [perform_kind]; rfl
  | state => exact Array.size_push _
  | accepting accepted => exact Array.size_push _
  | accept source accepted => exact builder.size_modifyState _ _
  | on source c target => exact builder.size_modifyState _ _
  | onRange source lo hi target => exact builder.size_modifyState _ _
  | onAny source chars target =>
      change (builder.onAny source chars target).states.size = builder.states.size
      rcases builder.onAny_eq source chars target with ⟨_, unchanged⟩ | changed
      · rw [unchanged]
      · rw [changed, size_modifyState]
  | otherwise source target => exact builder.size_modifyState _ _

theorem dangling_perform_singleton_eq_none_iff :
    (builder.perform [operation]).dangling = none ↔
      builder.dangling = none ∧ ∀ source ∈ operation.source?,
        source.toNat < builder.states.size := by
  -- Whatever changes a state changes nothing else, so one law covers all of it.
  have modified {source : StateId} {change : StateRules → StateRules} :
      (builder.modifyState source change).dangling = none ↔
        builder.dangling = none ∧ ∀ named ∈ some source, named.toNat < builder.states.size := by
    simp [dangling_modifyState_eq_none_iff]
  have nothingNamed : builder.dangling = none ↔
      builder.dangling = none ∧ ∀ named ∈ (none : Option StateId),
        named.toNat < builder.states.size := by
    simp
  cases operation with
  | kind name =>
      rw [perform_kind]
      exact nothingNamed
  | state => exact nothingNamed
  | accepting accepted => exact nothingNamed
  | accept source accepted => exact modified
  | on source c target => exact modified
  | onRange source lo hi target => exact modified
  | onAny source chars target =>
      change (builder.onAny source chars target).dangling = none ↔ _
      rw [Operation.source?]
      by_cases noChars : chars.toList = []
      · have unchanged : builder.onAny source chars target = builder := by
          rw [onAny, noChars]
          rfl
        rw [unchanged, if_pos noChars]
        exact nothingNamed
      · have changed := (builder.onAny_eq source chars target).resolve_left
          fun same => noChars same.1
        rw [changed, if_neg noChars]
        exact modified
  | otherwise source target => exact modified

/-- What the operation says about a state, when there are `count` states so far,
turns the rules `earlier` into `later`. -/
structure Operation.Extends (operation : Operation) (state : StateId) (count : Nat)
    (earlier later : StateRules) : Prop where
  edges_eq : later.edges.toList = earlier.edges.toList ++ operation.edgesFrom state
  fallback_eq : later.fallback = (operation.fallbackOf? state).or earlier.fallback
  accepts_eq : later.accepts = (operation.kindOf? state count).or earlier.accepts

theorem Records.append (records : builder.Records operations) {next : Builder}
    (sizeEq : next.states.size = builder.states.size + operation.stateGain)
    (kindNamesEq : next.kindNames.toList = registeredNames (operations ++ [operation]))
    (extended : ∀ state, operation.Extends state builder.states.size
      (builder.rulesAt state) (next.rulesAt state)) :
    next.Records (operations ++ [operation]) where
  states_size := by rw [sizeEq, records.states_size, stateTotal_append_singleton]
  kindNames_eq := kindNamesEq
  edges_eq state := by
    rw [(extended state).edges_eq, records.edges_eq, edgesOf_append_singleton]
  fallback_eq state := by
    rw [(extended state).fallback_eq, records.fallback_eq, lastFallback?_append_singleton]
  accepts_eq state := by
    rw [(extended state).accepts_eq, records.accepts_eq, records.states_size,
      lastKind?_append_singleton]

theorem Records.modifyState (records : builder.Records operations)
    (known : source.toNat < builder.states.size) (gainsNone : operation.stateGain = 0)
    (unnamed : operation.kindName? = none)
    (atSource : ∀ count rules, operation.Extends source count rules (change rules))
    (elsewhere : ∀ state count rules, source ≠ state →
      operation.Extends state count rules rules) :
    (builder.modifyState source change).Records (operations ++ [operation]) := by
  apply records.append
  · rw [gainsNone]
    exact builder.size_modifyState source change
  · rw [registeredNames_append_singleton _ _ unnamed, ← records.kindNames_eq,
      Builder.modifyState, if_pos known]
  · intro state
    rw [rulesAt_modifyState known]
    by_cases same : source = state
    · subst same
      rw [if_pos rfl]
      exact atSource _ _
    · rw [if_neg same]
      exact elsewhere state _ _ same

theorem Records.addStateWith (records : builder.Records operations) {rules : StateRules}
    (gains : operation.stateGain = 1) (unnamed : operation.kindName? = none)
    (atNew : ∀ state, operation.Extends state state.toNat {} rules)
    (elsewhere : ∀ state count rules, state.toNat ≠ count →
      operation.Extends state count rules rules) :
    (builder.addStateWith rules).2.Records (operations ++ [operation]) := by
  apply records.append
  · rw [gains]
    exact Array.size_push rules
  · rw [registeredNames_append_singleton _ _ unnamed, ← records.kindNames_eq]
    rfl
  · intro state
    rw [rulesAt_addStateWith]
    by_cases new : state.toNat = builder.states.size
    · rw [if_pos new, ← new, rulesAt_of_size_le (Nat.le_of_eq new.symm)]
      exact atNew state
    · rw [if_neg new]
      exact elsewhere state _ _ new

/-- A name that is taken is not registered again, and any other comes last. -/
theorem Records.perform_kind (records : builder.Records operations) (name : String) :
    (builder.perform [.kind name]).Records (operations ++ [.kind name]) := by
  have taken : name ∈ builder.kindNames ↔ name ∈ registeredNames operations := by
    rw [← records.kindNames_eq, Array.mem_toList_iff]
  rw [Builder.perform_kind]
  apply records.append
  · rfl
  · simp only [registeredNames_append_kind, taken, ← records.kindNames_eq]
    split
    · rfl
    · exact Array.toList_push
  · intro state
    exact ⟨(List.append_nil _).symm, rfl, rfl⟩

theorem Records.perform_singleton (records : builder.Records operations)
    (settled : (builder.perform [operation]).dangling = none) :
    (builder.perform [operation]).Records (operations ++ [operation]) := by
  cases operation with
  | kind name => exact records.perform_kind name
  | state =>
      apply records.addStateWith rfl rfl
      · exact fun _ => ⟨rfl, rfl, rfl⟩
      · exact fun _ _ _ _ => ⟨(List.append_nil _).symm, rfl, rfl⟩
  | accepting accepted =>
      apply records.addStateWith rfl rfl
      · exact fun _ => ⟨rfl, rfl, by simp [Operation.kindOf?]⟩
      · exact fun _ _ _ old =>
          ⟨(List.append_nil _).symm, rfl, by simp [Operation.kindOf?, old]⟩
  | accept source accepted =>
      apply records.modifyState (dangling_modifyState_eq_none_iff.mp settled).2 rfl rfl
      · exact fun _ _ => ⟨(List.append_nil _).symm, rfl, by simp [Operation.kindOf?]⟩
      · exact fun _ _ _ apart =>
          ⟨(List.append_nil _).symm, rfl, by simp [Operation.kindOf?, apart]⟩
  | on source c target =>
      apply records.modifyState (dangling_modifyState_eq_none_iff.mp settled).2 rfl rfl
      · exact fun _ _ => ⟨by simp [Operation.edgesFrom], rfl, rfl⟩
      · exact fun _ _ _ apart => ⟨by simp [Operation.edgesFrom, apart], rfl, rfl⟩
  | onRange source lo hi target =>
      apply records.modifyState (dangling_modifyState_eq_none_iff.mp settled).2 rfl rfl
      · exact fun _ _ => ⟨by simp [Operation.edgesFrom], rfl, rfl⟩
      · exact fun _ _ _ apart => ⟨by simp [Operation.edgesFrom, apart], rfl, rfl⟩
  | onAny source chars target =>
      change (builder.onAny source chars target).dangling = none at settled
      change (builder.onAny source chars target).Records _
      rcases builder.onAny_eq source chars target with ⟨noChars, unchanged⟩ | changed
      · rw [unchanged]
        apply records.append rfl
        · rw [registeredNames_append_singleton _ _ rfl, records.kindNames_eq]
        · exact fun _ => ⟨by simp [Operation.edgesFrom, noChars], rfl, rfl⟩
      · rw [changed] at settled ⊢
        apply records.modifyState (dangling_modifyState_eq_none_iff.mp settled).2 rfl rfl
        · exact fun _ _ => ⟨by simp [Operation.edgesFrom], rfl, rfl⟩
        · exact fun _ _ _ apart => ⟨by simp [Operation.edgesFrom, apart], rfl, rfl⟩
  | otherwise source target =>
      apply records.modifyState (dangling_modifyState_eq_none_iff.mp settled).2 rfl rfl
      · exact fun _ _ => ⟨(List.append_nil _).symm, by simp [Operation.fallbackOf?], rfl⟩
      · exact fun _ _ _ apart =>
          ⟨(List.append_nil _).symm, by simp [Operation.fallbackOf?, apart], rfl⟩

theorem perform_append_singleton (operations : List Operation) (operation : Operation) :
    builder.perform (operations ++ [operation]) =
      (builder.perform operations).perform [operation] :=
  List.foldl_append

theorem size_perform (operations : List Operation) :
    (empty.perform operations).states.size = stateTotal operations := by
  induction operations using List.reverseRecOn with
  | nil => rfl
  | append_singleton operations operation ih =>
      rw [perform_append_singleton, size_perform_singleton, ih, stateTotal_append_singleton]

theorem dangling_perform_eq_none_iff (operations : List Operation) :
    (empty.perform operations).dangling = none ↔ SourcesKnown operations := by
  induction operations using List.reverseRecOn with
  | nil => exact iff_of_true rfl sourcesKnown_nil
  | append_singleton operations operation ih =>
      rw [perform_append_singleton, dangling_perform_singleton_eq_none_iff, ih, size_perform,
        sourcesKnown_append_singleton_iff]

theorem rulesAt_empty (state : StateId) : empty.rulesAt state = {} := by
  rw [rulesAt, empty]
  rcases state.toNat with _ | _ | index <;> rfl

theorem records_empty : empty.Records [] where
  states_size := rfl
  kindNames_eq := rfl
  edges_eq state := by rw [rulesAt_empty]; rfl
  fallback_eq state := by rw [rulesAt_empty]; rfl
  accepts_eq state := by rw [rulesAt_empty]; rfl

/-- A description in which nothing is left dangling says what the operations
say that made it. -/
theorem records_of_perform (operations : List Operation)
    (settled : (empty.perform operations).dangling = none) :
    (empty.perform operations).Records operations := by
  induction operations using List.reverseRecOn with
  | nil => exact records_empty
  | append_singleton operations operation ih =>
      rw [perform_append_singleton] at settled ⊢
      have earlierSettled := (dangling_perform_singleton_eq_none_iff.mp settled).1
      exact (ih earlierSettled).perform_singleton settled

end Builder

end MaximalMunch
