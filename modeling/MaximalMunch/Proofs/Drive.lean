import MaximalMunch.Proofs.Emission

/-!
# Driving a walk over a text

Whoever drives a walk offers it the character at its cursor, as long as there is
one, and finishes it at the end of the text, again and again.
-/

namespace MaximalMunch

/-- At some moment of driving a fresh walk over the text, `steps` characters
have been offered and this is the walk. -/
inductive Driven (table : Table) (text : List Char) : Walk → Nat → Prop
  | fresh : Driven table text (Walk.startAt table 0) 0
  | step {walk : Walk} {steps : Nat} {c : Char} {left : List Char}
      (driven : Driven table text walk steps)
      (next : Text.dropBytes? walk.cursor text = some (c :: left)) :
      Driven table text (walk.step table c).2 (steps + 1)
  | finish {walk : Walk} {steps : Nat} (driven : Driven table text walk steps)
      (ended : Text.dropBytes? walk.cursor text = some []) :
      Driven table text (walk.finish table).2 steps

/-- A character that is consumed leads to a configuration that does not block. -/
theorem Walk.step_eq_consumed {table : Table} {walk next : Walk} {c : Char}
    (stepEq : walk.step table c = (.consumed, next)) :
    next.position = walk.position.advance table c ∧
      walk.blocks table (walk.position.advance table c) = false := by
  simp only [Walk.step] at stepEq
  split at stepEq
  case isTrue => cases stepEq
  case isFalse alive =>
    obtain rfl := (Prod.mk.inj stepEq).2
    rw [noteFirst_blocks] at alive
    refine ⟨?_, eq_false_of_ne_true alive⟩
    rw [enter]
    split <;> rfl

theorem Walk.cursor_of_step_eq_consumed {table : Table} {walk next : Walk} {c : Char}
    (stepEq : walk.step table c = (.consumed, next)) :
    next.cursor = walk.cursor + c.utf8Size :=
  congrArg Configuration.offset (step_eq_consumed stepEq).1

/-- A request for a token drives the walk. -/
theorem Driven.munch {table : Table} {text rest : List Char} {walk : Walk} {steps : Nat}
    (driven : Driven table text walk steps)
    (next : Text.dropBytes? walk.cursor text = some rest) :
    Driven table text (walk.munch table steps rest).2.1
      (walk.munch table steps rest).2.2 := by
  induction rest generalizing walk steps with
  | nil => exact driven.finish next
  | cons c rest ih =>
      have stepped := driven.step next
      rw [Walk.munch]
      split
      case h_1 token moved stepEq =>
        rw [stepEq] at stepped
        exact stepped
      case h_2 moved stepEq =>
        rw [stepEq] at stepped
        apply ih stepped
        obtain ⟨before, textEq, cursorEq⟩ := Text.dropBytes?_eq_some_iff.mp next
        refine Text.dropBytes?_eq_some_iff.mpr ⟨before ++ [c], by simp [textEq], ?_⟩
        simp [Walk.cursor_of_step_eq_consumed stepEq, cursorEq]

end MaximalMunch
