import MaximalMunch.Proofs.Recognition
import MaximalMunch.Walk

/-!
# Trails and dead configurations

Behind the last accept of a token a walk passes idle states only, and notes
each configuration it passes.  When the text turns out to be barren from the
last of them on, it is barren from each of them on: all of them are doomed.

The memory of a walk changes only when a token is emitted.  It then gains the
trail, and may lose configurations that lie before the end of the token.
-/

namespace MaximalMunch

namespace Configuration

def advance (table : Table) (configuration : Configuration) (c : Char) : Configuration :=
  ⟨table.transition configuration.state c, configuration.offset + c.utf8Size⟩

/-- The newest configuration of a trail, or its base when nothing was passed. -/
def newest (base : Configuration) : List Configuration → Configuration
  | [] => base
  | configuration :: _ => configuration

/-- Reading `tail` from `base` on passes the idle configurations of `trail`, the
newest of which is listed first. -/
inductive Idling (table : Table) (base : Configuration) :
    List Char → List Configuration → Prop
  | nil : Idling table base [] []
  | snoc {tail : List Char} {trail : List Configuration} {c : Char}
      (earlier : Idling table base tail trail)
      (idle : table.IsIdle ((newest base trail).advance table c).state) :
      Idling table base (tail ++ [c]) ((newest base trail).advance table c :: trail)

/-- The configuration is idle and lies at a cut of the text from which on the
text is barren. -/
def Doomed (table : Table) (text : List Char) (configuration : Configuration) : Prop :=
  table.IsIdle configuration.state ∧
    ∃ before rest, text = before ++ rest ∧ before ≠ [] ∧
      configuration.offset = Text.byteLength before ∧
      table.Barren configuration.state rest

variable {table : Table} {base : Configuration} {tail : List Char}
  {trail : List Configuration}

@[simp]
theorem newest_cons (configuration : Configuration) :
    newest base (configuration :: trail) = configuration :=
  rfl

theorem Idling.length_eq (idling : Idling table base tail trail) :
    trail.length = tail.length := by
  induction idling with
  | nil => rfl
  | snoc _ _ ih => simp [ih]

theorem Idling.offset_eq (idling : Idling table base tail trail) :
    (newest base trail).offset = base.offset + Text.byteLength tail := by
  induction idling with
  | nil => rfl
  | snoc _ _ ih => simp [advance, ih, Nat.add_assoc]

theorem Idling.run?_eq (idling : Idling table base tail trail) :
    table.run? base.state tail = some (newest base trail).state := by
  induction idling with
  | nil => rfl
  | snoc _ idle ih =>
      rw [Table.run?_append, ih, Option.bind_some]
      exact Table.run?_singleton idle.not_error

theorem Idling.descending (idling : Idling table base tail trail) :
    trail.Pairwise fun newer older => older.offset < newer.offset := by
  induction idling with
  | nil => exact .nil
  | @snoc tail trail c _ idle ih =>
      refine List.pairwise_cons.mpr ⟨?_, ih⟩
      intro older member
      have size := c.utf8Size_pos
      have newest : older.offset ≤ (newest base trail).offset := by
        cases trail with
        | nil => cases member
        | cons head trail =>
            rcases List.mem_cons.mp member with rfl | member
            · exact Nat.le_refl _
            · exact Nat.le_of_lt ((List.pairwise_cons.mp ih).1 older member)
      simp only [advance]
      omega

theorem Idling.base_lt (idling : Idling table base tail trail) :
    ∀ configuration ∈ trail, base.offset < configuration.offset := by
  induction idling with
  | nil => simp
  | @snoc tail trail c earlier _ ih =>
      refine List.forall_mem_cons.mpr ⟨?_, ih⟩
      have size := c.utf8Size_pos
      simp only [advance, earlier.offset_eq]
      omega

theorem Idling.nodup (idling : Idling table base tail trail) : trail.Nodup := by
  refine idling.descending.imp ?_
  intro newer older descends same
  rw [same] at descends
  exact Nat.lt_irrefl _ descends

theorem Idling.barren (idling : Idling table base tail trail) {rest : List Char}
    (barren : table.Barren (newest base trail).state rest) :
    table.Barren base.state (tail ++ rest) := by
  induction idling generalizing rest with
  | nil => exact barren
  | @snoc tail trail c _ idle ih =>
      rw [List.append_assoc]
      exact ih (.inr ⟨idle.rejecting, barren⟩)

/-- Where the text is barren from the newest configuration of a trail on, the
whole trail is doomed. -/
theorem Idling.doomed (idling : Idling table base tail trail)
    {before rest : List Char} (based : base.offset = Text.byteLength before)
    (barren : table.Barren (newest base trail).state rest) :
    ∀ configuration ∈ trail,
      configuration.Doomed table (before ++ tail ++ rest) := by
  induction idling generalizing rest with
  | nil => simp
  | @snoc tail trail c earlier idle ih =>
      refine List.forall_mem_cons.mpr ⟨⟨idle, before ++ tail ++ [c], rest, ?_⟩, ?_⟩
      · refine ⟨by simp, by simp, ?_, barren⟩
        simp [advance, earlier.offset_eq, based, Nat.add_assoc]
      · have earlierBarren : table.Barren (newest base trail).state (c :: rest) :=
          .inr ⟨idle.rejecting, barren⟩
        simpa using ih earlierBarren

/-- From a doomed configuration on the text is barren. -/
theorem Doomed.barren {before rest : List Char} {configuration : Configuration}
    (doomed : configuration.Doomed table (before ++ rest))
    (located : configuration.offset = Text.byteLength before) :
    table.Barren configuration.state rest := by
  obtain ⟨_, otherBefore, otherRest, sameText, _, otherLocated, barren⟩ := doomed
  obtain ⟨_, rfl⟩ :=
    Text.append_inj_of_byteLength_eq sameText (located.symm.trans otherLocated)
  exact barren

end Configuration

namespace Walk

theorem mem_of_mem_prune {dead : Configurations} {limit offset : Nat}
    {configuration : Configuration}
    (member : configuration ∈ (prune dead limit offset).1) : configuration ∈ dead := by
  rw [prune] at member
  split at member
  · exact Std.ExtTreeSet.mem_of_mem_filter member
  · exact member

theorem mem_prune_of_lt {dead : Configurations} {limit offset : Nat}
    {configuration : Configuration} (member : configuration ∈ dead)
    (behind : offset < configuration.offset) :
    configuration ∈ (prune dead limit offset).1 := by
  rw [prune]
  split
  · refine Std.ExtTreeSet.mem_filter.mpr ⟨member, ?_⟩
    simpa using behind
  · exact member

variable {walk : Walk} {table : Table}

theorem mem_or_mem_of_mem_restartAt {offset : Nat} {configuration : Configuration}
    (member : configuration ∈ (walk.restartAt table offset).dead) :
    configuration ∈ walk.dead ∨ configuration ∈ walk.trail := by
  simpa using mem_of_mem_prune member

/-- After a token, what was dead or was passed behind its last accept is dead,
as far as it lies behind the end of the token. -/
theorem mem_restartAt_of_lt {offset : Nat} {configuration : Configuration}
    (member : configuration ∈ walk.dead ∨ configuration ∈ walk.trail)
    (behind : offset < configuration.offset) :
    configuration ∈ (walk.restartAt table offset).dead := by
  apply mem_prune_of_lt _ behind
  simpa using member

end Walk

end MaximalMunch
