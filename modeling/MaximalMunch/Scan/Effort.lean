import MaximalMunch.Walk

/-!
# The effort of a scan

Drives a fresh walk over a text and takes down, after each token, how many
characters have been offered so far and how many dead configurations are
remembered.  Characters that are read again after the walk went back count
again.
-/

namespace MaximalMunch

/-- The state of affairs right after a token. -/
structure Milestone where
  token : Token
  /-- Characters offered so far. -/
  steps : Nat
  /-- Dead configurations remembered. -/
  dead : Nat
  deriving DecidableEq, Repr

/-- What a scan of a whole text took. -/
structure Effort where
  milestones : List Milestone
  /-- Characters offered in total. -/
  steps : Nat
  walk : Walk

namespace Effort

/-- The effort of scanning `rest`, which is what the text holds from the cursor
of `walk` on, after `steps` characters have been offered.  Stops after `count`
requests. -/
def scanFrom (table : Table) : Nat → Walk → Nat → List Char → Effort
  | 0, walk, steps, _ => ⟨[], steps, walk⟩
  | count + 1, walk, steps, rest =>
      match walk.munch table steps rest with
      | (none, walk, steps) => ⟨[], steps, walk⟩
      | (some token, walk, steps) =>
          let milestone := ⟨token, steps, walk.dead.size⟩
          match Text.dropBytes? (token.stop - token.start) rest with
          | none => ⟨[milestone], steps, walk⟩
          | some rest =>
              let effort := scanFrom table count walk steps rest
              { effort with milestones := milestone :: effort.milestones }

def ofText (table : Table) (text : String) : Effort :=
  scanFrom table (text.length + 1) (Walk.startAt table 0) 0 text.toList

/-- The largest memory right after a token. -/
def deadPeak (effort : Effort) : Nat :=
  effort.milestones.foldl (fun peak milestone => max peak milestone.dead) 0

/-- Every milestone whose number, counted from one, is divisible by `period`. -/
def sample (effort : Effort) (period : Nat) : List Milestone :=
  (effort.milestones.zipIdx 1).filterMap fun (milestone, number) =>
    if number % period = 0 then some milestone else none

end Effort

end MaximalMunch
