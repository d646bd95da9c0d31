import MaximalMunch.Builder.Basic
import Mathlib.Data.List.Induction
import Mathlib.Data.List.Nodup

/-!
# What operations say about states

A list of operations is read without carrying it out: which edges it gives to a
state, which fallback and which kind it sets last, how many states it makes,
which names of kinds it registers, and whether each operation starts from a state
that exists by then.
-/

namespace MaximalMunch

namespace Builder

namespace Operation

def edgesFrom (state : StateId) : Operation → List Edge
  | .on source c target => if source = state then [⟨c, c, target⟩] else []
  | .onRange source lo hi target => if source = state then [⟨lo, hi, target⟩] else []
  | .onAny source chars target =>
      if source = state then chars.toList.map fun c => ⟨c, c, target⟩ else []
  | _ => []

/-- The fallback that an operation sets for a state. -/
def fallbackOf? (state : StateId) : Operation → Option StateId
  | .otherwise source target => if source = state then some target else none
  | _ => none

/-- The kind that an operation sets for a state, when there are `count` states
so far. -/
def kindOf? (state : StateId) (count : Nat) : Operation → Option KindId
  | .accepting accepted => if state.toNat = count then some accepted else none
  | .accept source accepted => if source = state then some accepted else none
  | _ => none

def stateGain : Operation → Nat
  | .state => 1
  | .accepting _ => 1
  | _ => 0

def kindName? : Operation → Option String
  | .kind name => some name
  | _ => none

/-- The state that an operation says something about.  Without characters there
is no edge to add, and the state is not even looked for. -/
def source? : Operation → Option StateId
  | .accept source _ => some source
  | .on source _ _ => some source
  | .onRange source _ _ _ => some source
  | .onAny source chars _ => if chars.toList = [] then none else some source
  | .otherwise source _ => some source
  | _ => none

end Operation

/-- The number of states after the operations; two exist from the start. -/
def stateTotal (operations : List Operation) : Nat :=
  operations.foldl (fun count operation => count + operation.stateGain) 2

/-- The edges of a state in the order in which they were added. -/
def edgesOf (state : StateId) (operations : List Operation) : List Edge :=
  operations.flatMap (Operation.edgesFrom state)

def lastFallback? (state : StateId) (operations : List Operation) : Option StateId :=
  (operations.filterMap (Operation.fallbackOf? state)).getLast?

/-- The kinds that are set for a state, one after the other, by operations that
begin with `count` states. -/
def kindsSet (state : StateId) : Nat → List Operation → List KindId
  | _, [] => []
  | count, operation :: operations =>
      (operation.kindOf? state count).toList ++
        kindsSet state (count + operation.stateGain) operations

def lastKind? (state : StateId) (operations : List Operation) : Option KindId :=
  (kindsSet state 2 operations).getLast?

/-- The names that are registered: the reserved name never is, and no name is
registered twice. -/
def registeredNames (operations : List Operation) : List String :=
  ((operations.filterMap Operation.kindName?).filter
    (· ≠ KindId.unrecognizedName)).eraseDups

/-- Each operation starts from a state that exists when its turn comes. -/
def SourcesKnown (operations : List Operation) : Prop :=
  ∀ earlier operation, earlier ++ [operation] <+: operations →
    ∀ source ∈ operation.source?, source.toNat < stateTotal earlier

section Append

variable (operations : List Operation) (operation : Operation) (state : StateId)

theorem stateTotal_append_singleton :
    stateTotal (operations ++ [operation]) =
      stateTotal operations + operation.stateGain := by
  rw [stateTotal, List.foldl_append]
  rfl

theorem edgesOf_append_singleton :
    edgesOf state (operations ++ [operation]) =
      edgesOf state operations ++ operation.edgesFrom state := by
  simp [edgesOf]

theorem lastFallback?_append_singleton :
    lastFallback? state (operations ++ [operation]) =
      (operation.fallbackOf? state).or (lastFallback? state operations) := by
  rw [lastFallback?, List.filterMap_append, List.getLast?_append]
  congr 1
  cases fallback : operation.fallbackOf? state <;> simp [fallback]

theorem kindsSet_append_singleton (count : Nat) :
    kindsSet state count (operations ++ [operation]) =
      kindsSet state count operations ++
        (operation.kindOf? state
          (operations.foldl (fun count operation => count + operation.stateGain)
            count)).toList := by
  induction operations generalizing count with
  | nil => simp [kindsSet]
  | cons head operations ih => simp [kindsSet, ih]

theorem lastKind?_append_singleton :
    lastKind? state (operations ++ [operation]) =
      (operation.kindOf? state (stateTotal operations)).or
        (lastKind? state operations) := by
  rw [lastKind?, kindsSet_append_singleton, List.getLast?_append, ← stateTotal]
  congr 1
  cases operation.kindOf? state (stateTotal operations) <;> rfl

theorem eraseDups_append_singleton {α : Type} [BEq α] [LawfulBEq α] (items : List α) (item : α) :
    (items ++ [item]).eraseDups =
      if item ∈ items.eraseDups then items.eraseDups else items.eraseDups ++ [item] := by
  rw [List.eraseDups_append]
  by_cases member : item ∈ items <;> simp [List.removeAll, member, List.eraseDups_cons]

theorem nodup_eraseDups {α : Type} [BEq α] [LawfulBEq α] (items : List α) :
    items.eraseDups.Nodup := by
  induction items using List.reverseRecOn with
  | nil => exact List.nodup_nil
  | append_singleton items item ih =>
      rw [eraseDups_append_singleton]
      split
      case isTrue => exact ih
      case isFalse fresh =>
        rw [← List.concat_eq_append]
        exact List.Nodup.concat fresh ih

theorem registeredNames_append_kind (name : String) :
    registeredNames (operations ++ [.kind name]) =
      if name = KindId.unrecognizedName ∨ name ∈ registeredNames operations then
        registeredNames operations
      else
        registeredNames operations ++ [name] := by
  rw [registeredNames, List.filterMap_append, List.filter_append]
  by_cases reserved : name = KindId.unrecognizedName
  · simp [Operation.kindName?, reserved, registeredNames]
  · have kept : (List.filterMap Operation.kindName? [.kind name]).filter
        (· ≠ KindId.unrecognizedName) = [name] := by
      simp [Operation.kindName?, reserved]
    rw [kept, eraseDups_append_singleton, ← registeredNames]
    simp only [reserved, false_or]

theorem registeredNames_append_singleton (unnamed : operation.kindName? = none) :
    registeredNames (operations ++ [operation]) = registeredNames operations := by
  simp [registeredNames, unnamed]

end Append

theorem sourcesKnown_nil : SourcesKnown [] := by
  intro earlier operation leads
  simp at leads

theorem sourcesKnown_append_singleton_iff {operations : List Operation} {operation : Operation} :
    SourcesKnown (operations ++ [operation]) ↔
      SourcesKnown operations ∧ ∀ source ∈ operation.source?,
        source.toNat < stateTotal operations := by
  constructor
  · intro known
    refine ⟨fun earlier other leads => ?_, known operations operation (List.prefix_refl _)⟩
    exact known earlier other (leads.trans (List.prefix_append operations [operation]))
  · rintro ⟨known, lastKnown⟩ earlier other leads
    rcases List.prefix_concat_iff.mp leads with last | leads
    · obtain ⟨rfl, rfl⟩ := List.append_singleton_inj.mp last
      exact lastKnown
    · exact known earlier other leads

theorem two_le_stateTotal (operations : List Operation) : 2 ≤ stateTotal operations := by
  induction operations using List.reverseRecOn with
  | nil => exact Nat.le_refl 2
  | append_singleton operations operation ih =>
      rw [stateTotal_append_singleton]
      exact Nat.le_add_right_of_le ih

theorem unrecognizedName_not_mem_registeredNames (operations : List Operation) :
    KindId.unrecognizedName ∉ registeredNames operations := by
  simp [registeredNames]

end Builder

end MaximalMunch
