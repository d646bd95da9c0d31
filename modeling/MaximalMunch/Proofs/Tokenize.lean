import MaximalMunch.Proofs.Emission
import MaximalMunch.Scan.Pull

/-!
# Tokens that are pulled

A pull scanner holds a walk at rest and the text behind it.  A request moves
both behind the next token of longest match, so the tokens of a text are exactly
those of repeated longest match.  It makes no difference to a request whether it
reads on in the text behind its cursor, or looks up every character in the whole
text.
-/

namespace MaximalMunch

namespace Walk

/-- Look up the character at the cursor in the whole text before every step, until
a token is emitted or there is no character left.  There is no answer
when `count` look-ups do not suffice. -/
def reread? (table : Table) (text : List Char) :
    Nat → Walk → Option (Except ScanError (Option Token) × Walk)
  | 0, _ => none
  | count + 1, walk =>
      match Text.dropBytes? walk.cursor text with
      | none => some (.error (.stalled walk.cursor), walk)
      | some [] =>
          let (token, next) := walk.finish table
          some (.ok token, next)
      | some (c :: _) =>
          match walk.step table c with
          | (.boundary token, next) => some (.ok (some token), next)
          | (.consumed, next) => reread? table text count next

variable {table : Table} {walk : Walk} {before ahead matched tail rest : List Char}

/-- The cursor moves on by what a step consumes, so the text read anew is what was
left. -/
theorem Underway.reread?_eq (underway : walk.Underway table before ahead matched tail rest)
    {count : Nat} (enough : rest.length < count) (steps : Nat) :
    walk.reread? table (before ++ ahead) count =
      some (.ok (walk.munch table steps rest).1, (walk.munch table steps rest).2.1) := by
  induction count generalizing walk matched tail rest steps with
  | zero => omega
  | succ count ih =>
      rw [reread?, underway.dropBytes?_cursor]
      cases rest with
      | nil => rfl
      | cons c rest =>
          rw [List.length_cons] at enough
          have fewer : rest.length < count := Nat.lt_of_succ_lt_succ enough
          rcases underway.step_cases with
            ⟨next, stepEq, _, _, extended⟩ | ⟨emission, stepEq, _⟩
          · simp only [Walk.munch, stepEq]
            rcases extended with extended | extended
            · exact ih extended fewer (steps + 1)
            · exact ih extended fewer (steps + 1)
          · simp only [Walk.munch, stepEq]

end Walk

namespace PullScanner

variable {table : Table}

/-- The scanner has answered the tokens of `before`, and `ahead` is left. -/
structure RestsAt (scanner : PullScanner table) (before ahead : List Char) : Prop where
  text_eq : scanner.text.toList = before ++ ahead
  rest_eq : scanner.rest = some ahead
  walk_rests : scanner.walk.RestsAt table before ahead
  unfinished : scanner.finished = false

theorem ofText_restsAt (table : Table) (text : String) :
    (ofText table text).RestsAt [] text.toList where
  text_eq := rfl
  rest_eq := rfl
  walk_rests := Walk.startAt_restsAt table [] text.toList
  unfinished := rfl

variable {scanner : PullScanner table} {before ahead : List Char}

theorem RestsAt.next_nil (rests : scanner.RestsAt before []) :
    scanner.next = (.ok none, { scanner with finished := true }) := by
  simp [next, rests.unfinished, rests.rest_eq, rests.walk_rests.munch_nil]

/-- A request before the end of the text answers the token that longest match
takes, and moves the scanner behind it. -/
theorem RestsAt.next_of_ne_nil (rests : scanner.RestsAt before ahead)
    (nonempty : ahead ≠ []) :
    ∃ emission : Walk.Emission table before ahead, ∃ moved,
      scanner.next = (.ok (some emission.token), moved) ∧
      moved.RestsAt (before ++ emission.word) emission.after ∧
      moved.text = scanner.text ∧ moved.token = some emission.token := by
  obtain ⟨emission, taken, munchEq⟩ := rests.walk_rests.munch nonempty 0
  let moved : PullScanner table :=
    { scanner with
      rest := some emission.after
      walk := emission.next
      token := some emission.token }
  refine ⟨emission, moved, ?_, ?_, rfl, rfl⟩
  · simp [next, rests.unfinished, rests.rest_eq, munchEq, emission.token_not_isEmpty,
      emission.dropBytes?_eq, moved]
  · refine ⟨?_, rfl, emission.restsAt, rests.unfinished⟩
    rw [emission.text_eq]
    exact rests.text_eq

/-- `next` with the text read anew at the cursor before every step. -/
def nextReread? (scanner : PullScanner table) (count : Nat) :
    Option (Except ScanError (Option Token) × PullScanner table) :=
  if scanner.finished then
    some (.ok none, scanner)
  else
    (scanner.walk.reread? table scanner.text.toList count).map fun
      | (.error failure, walk) =>
          (.error failure, { scanner with walk := walk, finished := true })
      | (.ok none, walk) => (.ok none, { scanner with walk := walk, finished := true })
      | (.ok (some token), walk) =>
          if token.isEmpty then
            (.error (.stalled token.start), { scanner with walk := walk, finished := true })
          else
            (.ok (some token),
              { scanner with
                rest := Text.dropBytes? walk.cursor scanner.text.toList
                walk := walk
                token := some token })

theorem RestsAt.nextReread?_eq (rests : scanner.RestsAt before ahead) {count : Nat}
    (enough : ahead.length < count) : scanner.nextReread? count = some scanner.next := by
  have rereadEq := rests.walk_rests.reread?_eq enough 0
  rw [← rests.text_eq] at rereadEq
  by_cases last : ahead = []
  · subst last
    rw [rests.walk_rests.munch_nil] at rereadEq
    simp [nextReread?, rests.unfinished, rereadEq, rests.next_nil]
  · obtain ⟨emission, taken, munchEq⟩ := rests.walk_rests.munch last 0
    have textEq : scanner.text.toList = before ++ emission.word ++ emission.after := by
      rw [rests.text_eq, emission.text_eq]
    have reread : Text.dropBytes? emission.next.cursor scanner.text.toList =
        some emission.after := by
      rw [textEq]
      exact emission.restsAt.dropBytes?_cursor
    rw [munchEq] at rereadEq
    simp [nextReread?, next, rests.unfinished, rests.rest_eq, rereadEq, munchEq,
      emission.token_not_isEmpty, emission.dropBytes?_eq, reread]

/-- Enough requests answer the tokens of repeated longest match. -/
theorem RestsAt.take_munched (rests : scanner.RestsAt before ahead) {count : Nat}
    (enough : ahead.length < count) :
    table.Munched (Text.byteLength before) ahead (scanner.take count).1 := by
  induction count generalizing scanner before ahead with
  | zero => omega
  | succ count ih =>
      by_cases last : ahead = []
      · subst last
        rw [take, rests.next_nil]
        exact .nil
      · obtain ⟨emission, moved, nextEq, movedRests, _⟩ := rests.next_of_ne_nil last
        rw [take, nextEq]
        apply emission.munched
        apply ih movedRests
        have shorter := emission.length_after_lt
        omega

end PullScanner

variable {table : Table}

theorem tokenize_munched (table : Table) (text : String) :
    table.Munched 0 text.toList (tokenize table text) := by
  apply (PullScanner.ofText_restsAt table text).take_munched
  rw [String.length_toList]
  exact Nat.lt_succ_self text.length

/-- Maximal munch: the tokens of a text are the only ones that tile it and are
all longest matches.  The memory of the walk has no part in it, since a walk
that remembers nothing emits each of the tokens too. -/
theorem tokenize_isMaximalMunch (fewKinds : table.kindCount ≤ UInt32.size - 2)
    (text : String) :
    (∀ tokens, IsMaximalMunch table text tokens ↔ tokens = tokenize table text) ∧
    ∀ token ∈ tokenize table text, ∃ ahead,
      Text.dropBytes? token.start text.toList = some ahead ∧
      ((Walk.startAt table token.start).munch table 0 ahead).1 = some token := by
  have munched := tokenize_munched table text
  constructor
  · intro tokens
    rw [isMaximalMunch_iff_munched fewKinds]
    constructor
    · intro other
      exact other.unique munched
    · rintro rfl
      exact munched
  · intro token member
    obtain ⟨before, ahead, word, textEq, munches, startEq, stopEq⟩ :=
      Table.Munched.exists_munches [] munched member
    refine ⟨ahead, ?_, ?_⟩
    · exact Text.dropBytes?_eq_some_iff.mpr ⟨before, textEq, startEq.symm⟩
    · rw [startEq, (Walk.startAt_restsAt table before ahead).munch_fst_eq munches, ← stopEq,
        ← startEq]

/-- Parts that recognize `a` and `abc`, so that a walk has to go back when
something else follows `ab`. -/
def sampleParts : Parts where
  stateCount := 5
  classCount := 4
  classes :=
    { ascii := Vector.ofFn fun point =>
        if point.val = 97 then 1 else if point.val = 98 then 2
        else if point.val = 99 then 3 else 0
      ranges := #[] }
  next := #[1, 2, 1, 1, 1, 1, 1, 1, 1, 1, 3, 1, 1, 1, 1, 4, 1, 1, 1, 1]
  tokenOf := #[KindId.absent, KindId.absent, 0, KindId.absent, 1]
  kindNames := #["A", "ABC"]
  start := 0
  error := 1

def sampleTable : Table where
  parts := sampleParts
  valid := Parts.valid_of_defect?_eq_none (by decide)

theorem tokenize_isMaximalMunch_sample :
    sampleTable.kindCount ≤ UInt32.size - 2 ∧
      IsMaximalMunch sampleTable "abéabc"
        [⟨0, 1, 0⟩, ⟨1, 2, KindId.unrecognized⟩, ⟨2, 4, KindId.unrecognized⟩, ⟨4, 7, 1⟩] := by
  have fewKinds : sampleTable.kindCount ≤ UInt32.size - 2 := by decide
  refine ⟨fewKinds, ?_⟩
  rw [(tokenize_isMaximalMunch fewKinds "abéabc").1]
  decide +kernel

end MaximalMunch
