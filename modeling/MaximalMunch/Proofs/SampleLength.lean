import MaximalMunch.Proofs.Cuts
import MaximalMunch.Random.SampleText

/-!
# How long sample texts get

Every piece of a sample text takes at least a byte, so that appending pieces
comes to an end, and none takes more than 154 bytes, so that the last one goes
at most 153 bytes beyond what was asked for.  How much is asked for decides only
where the text ends: a longer one begins with the shorter one.
-/

namespace MaximalMunch

namespace SampleText

open RandomSource

variable {σ : Type}

/-- Whatever is drawn, the text that the computation gives takes at least
`least` and at most `most` bytes. -/
def Takes (least most : Nat) (computation : StateM σ (List Char)) : Prop :=
  ∀ source, least ≤ Text.byteLength (computation source).1 ∧
    Text.byteLength (computation source).1 ≤ most

variable {least most : Nat}

theorem takes_pure {text : List Char} (atLeast : least ≤ Text.byteLength text)
    (atMost : Text.byteLength text ≤ most) :
    Takes least most (pure text : StateM σ (List Char)) :=
  fun _ => ⟨atLeast, atMost⟩

theorem takes_pure_append {front back : List Char}
    (atLeast : least ≤ Text.byteLength front + Text.byteLength back)
    (atMost : Text.byteLength front + Text.byteLength back ≤ most) :
    Takes least most (pure (front ++ back) : StateM σ (List Char)) := by
  rw [← Text.byteLength_append] at atLeast atMost
  exact takes_pure atLeast atMost

theorem takes_pure_enclosed {front body back : List Char}
    (atLeast : least ≤ Text.byteLength front + Text.byteLength body + Text.byteLength back)
    (atMost : Text.byteLength front + Text.byteLength body + Text.byteLength back ≤ most) :
    Takes least most (pure (front ++ body ++ back) : StateM σ (List Char)) := by
  rw [← Text.byteLength_append] at atLeast atMost
  exact takes_pure_append atLeast atMost

theorem Takes.mono {computation : StateM σ (List Char)} {lower upper : Nat}
    (takes : Takes lower upper computation) (atLeast : least ≤ lower) (atMost : upper ≤ most) :
    Takes least most computation := by
  intro source
  obtain ⟨lowerBound, upperBound⟩ := takes source
  exact ⟨Nat.le_trans atLeast lowerBound, Nat.le_trans upperBound atMost⟩

theorem takes_bind {α : Type} {first : StateM σ α} {next : α → StateM σ (List Char)}
    (each : ∀ answer, Takes least most (next answer)) : Takes least most (first >>= next) :=
  fun source => each (first source).1 (first source).2

/-- What follows a text may rely on what that text takes. -/
theorem Takes.bind {first : StateM σ (List Char)} {lower upper : Nat}
    (takes : Takes lower upper first) {next : List Char → StateM σ (List Char)}
    (each : ∀ text, lower ≤ Text.byteLength text → Text.byteLength text ≤ upper →
      Takes least most (next text)) :
    Takes least most (first >>= next) := by
  intro source
  obtain ⟨lowerBound, upperBound⟩ := takes source
  exact each _ lowerBound upperBound (first source).2

theorem Takes.repeated {computation : StateM σ (List Char)}
    (takes : Takes least most computation) (count : Nat) :
    Takes (count * least) (count * most) (repeated computation count) := by
  induction count with
  | zero => exact takes_pure (by simp) (by simp)
  | succ count ih =>
      refine takes.bind ?_
      intro front frontLeast frontMost
      refine ih.bind ?_
      intro back backLeast backMost
      rw [Nat.succ_mul, Nat.succ_mul]
      exact takes_pure_append (by omega) (by omega)

variable [RandomSource σ]

theorem takes_between {low high : Nat} (ordered : low ≤ high)
    {next : Nat → StateM σ (List Char)}
    (each : ∀ number, low ≤ number → number ≤ high → Takes least most (next number)) :
    Takes least most (between low high >>= next) := by
  intro source
  have drawn := (draw (high - low) source).1.isLt
  exact each (low + (draw (high - low) source).1.val) (by omega) (by omega)
    (draw (high - low) source).2

theorem pick_mem {α : Type} (first : α) (others : List α) (source : σ) :
    (pick first others source).1 ∈ first :: others :=
  List.get_mem _ _

theorem takes_pick {α : Type} {first : α} {others : List α}
    {next : α → StateM σ (List Char)}
    (each : ∀ answer ∈ first :: others, Takes least most (next answer)) :
    Takes least most (pick first others >>= next) :=
  fun source => each _ (pick_mem first others source) (pick first others source).2

/-- A part that may be left out takes no more than the part. -/
theorem byteLength_optional_le (present : Bool) (part : List Char) :
    Text.byteLength (if present then part else []) ≤ Text.byteLength part := by
  cases present
  · exact Nat.zero_le _
  · exact Nat.le_refl _

/-- Checked as a truth value, so that only the listed characters are gone
through. -/
theorem pick_char_takes (widest : Nat) {first : Char} {others : List Char}
    (small : (first :: others).all (fun c => c.utf8Size ≤ widest) = true) :
    Takes 1 widest (do return [← pick first others] : StateM σ (List Char)) := by
  apply takes_pick
  intro c member
  have atMost := of_decide_eq_true (List.all_eq_true.mp small c member)
  have atLeast : 1 ≤ c.utf8Size := c.utf8Size_pos
  apply takes_pure
  · simpa using atLeast
  · simpa using atMost

theorem charOf_takes (widest : Nat) {alphabet : String} (positive : 1 ≤ widest)
    (small : alphabet.toList.all (fun c => c.utf8Size ≤ widest) = true) :
    Takes 1 widest (charOf alphabet : StateM σ (List Char)) := by
  unfold charOf
  split
  case h_1 => exact takes_pure (Nat.le_refl 1) positive
  case h_2 first others alphabetEq =>
    rw [alphabetEq] at small
    exact pick_char_takes widest small

theorem letter_takes : Takes 1 1 (letter : StateM σ (List Char)) :=
  charOf_takes 1 (Nat.le_refl 1) rfl

theorem digit_takes : Takes 1 1 (digit : StateM σ (List Char)) :=
  charOf_takes 1 (Nat.le_refl 1) rfl

theorem identifier_takes : Takes 1 12 (identifier : StateM σ (List Char)) := by
  unfold identifier
  apply takes_between (by omega)
  intro length _ lengthMost
  apply letter_takes.bind
  intro first firstLeast firstMost
  have oneMore : Takes 1 1 (do if ← holds threeInFive then letter else digit :
      StateM σ (List Char)) := by
    apply takes_bind
    intro answer
    cases answer
    · exact digit_takes
    · exact letter_takes
  apply (oneMore.repeated (length - 1)).bind
  intro others _ othersMost
  exact takes_pure_append (by omega) (by omega)

theorem integer_takes : Takes 1 8 (integer : StateM σ (List Char)) := by
  unfold integer
  apply takes_between (by omega)
  intro length lengthLeast lengthMost
  exact (digit_takes.repeated length).mono (by omega) (by omega)

theorem decimal_takes : Takes 2 17 (decimal : StateM σ (List Char)) := by
  unfold decimal
  apply integer_takes.bind
  intro whole wholeLeast wholeMost
  have point : Text.byteLength ['.'] = 1 := rfl
  apply takes_bind
  intro more
  cases more
  · have nothing : Text.byteLength [] = 0 := rfl
    exact takes_pure_enclosed (by omega) (by omega)
  · apply integer_takes.bind
    intro fraction fractionLeast fractionMost
    exact takes_pure_enclosed (by omega) (by omega)

theorem layout_takes : Takes 1 8 (layout : StateM σ (List Char)) := by
  unfold layout
  apply takes_between (by omega)
  intro length lengthLeast lengthMost
  exact ((charOf_takes 1 (by decide) rfl).repeated length).mono
    (by omega) (by omega)

theorem lineComment_takes : Takes 3 83 (lineComment : StateM σ (List Char)) := by
  unfold lineComment
  apply takes_between (by omega)
  intro length _ lengthMost
  apply ((charOf_takes 2 (by decide) rfl).repeated length).bind
  intro body _ bodyMost
  have opening : Text.byteLength ['/', '/'] = 2 := rfl
  have lineEnd : Text.byteLength ['\n'] = 1 := rfl
  exact takes_pure_enclosed (by omega) (by omega)

theorem commentChunk_takes : Takes 1 10 (commentChunk : StateM σ (List Char)) := by
  unfold commentChunk
  apply takes_between (by omega)
  intro length lengthLeast lengthMost
  apply ((charOf_takes 1 (by decide) rfl).repeated length).bind
  intro body bodyLeast bodyMost
  apply takes_bind
  intro star
  apply takes_bind
  intro lineEnd
  have starMost : _ ≤ 1 := byteLength_optional_le star ['*']
  have lineEndMost : _ ≤ 1 := byteLength_optional_le lineEnd ['\n']
  exact takes_pure_enclosed (by omega) (by omega)

theorem blockComment_takes : Takes 2 154 (blockComment : StateM σ (List Char)) := by
  unfold blockComment
  apply takes_between (by omega)
  intro chunks _ chunksMost
  apply (commentChunk_takes.repeated chunks).bind
  intro body _ bodyMost
  apply takes_bind
  intro closed
  have opening : Text.byteLength ['/', '*'] = 2 := rfl
  have closingMost : _ ≤ 2 := byteLength_optional_le closed ['*', '/']
  exact takes_pure_enclosed (by omega) (by omega)

theorem operator_takes : Takes 1 3 (operator : StateM σ (List Char)) := by
  have symbolBounds : ∀ symbol ∈ "(" :: furtherOperators,
      1 ≤ Text.byteLength symbol.toList ∧ Text.byteLength symbol.toList ≤ 2 := by
    decide
  unfold operator
  apply takes_pick
  intro symbol member
  obtain ⟨symbolLeast, symbolMost⟩ := symbolBounds symbol member
  apply takes_bind
  intro spaced
  have blankMost : _ ≤ 1 := byteLength_optional_le spaced [' ']
  exact takes_pure_append (by omega) (by omega)

theorem noise_takes : Takes 1 3 (noise : StateM σ (List Char)) :=
  pick_char_takes 3 (by decide)

theorem piece_takes : Takes 1 154 (piece : StateM σ (List Char)) := by
  unfold piece
  apply takes_bind
  intro roll
  split
  · exact identifier_takes.mono (by omega) (by omega)
  split
  · exact integer_takes.mono (by omega) (by omega)
  split
  · exact decimal_takes.mono (by omega) (by omega)
  split
  · exact layout_takes.mono (by omega) (by omega)
  split
  · exact lineComment_takes.mono (by omega) (by omega)
  split
  · exact blockComment_takes.mono (by omega) (by omega)
  split
  · exact operator_takes.mono (by omega) (by omega)
  · exact noise_takes.mono (by omega) (by omega)

theorem pieceFor?_eq_some {roll : Nat} (inRange : roll < 100) :
    pieceFor? roll = some
      (if roll ≤ 21 then identifier
        else if roll ≤ 33 then integer
        else if roll ≤ 41 then decimal
        else if roll ≤ 56 then layout
        else if roll ≤ 61 then lineComment
        else if roll ≤ 67 then blockComment
        else if roll ≤ 91 then operator
        else (noise : StateM σ (List Char))) := by
  unfold pieceFor?
  grind

/-- Every roll stands for a piece, the one that `piece` takes. -/
theorem piece?_eq (source : σ) : piece? source = some (piece source) := by
  have inRange := (upTo 99 source).1.isLt
  change (pieceFor? (upTo 99 source).1.val).map
    (fun computation : StateM σ (List Char) => computation (upTo 99 source).2) = _
  rw [pieceFor?_eq_some inRange]
  rfl

/-- Appending pieces to `text` until it takes `target` bytes ends with `final`.
There is no way on from a roll that stands for no piece. -/
inductive Grows (target : Nat) : List Char → σ → List Char → σ → Prop
  | enough {text : List Char} {source : σ} (long : target ≤ Text.byteLength text) :
      Grows target text source text source
  | more {text front final : List Char} {source moved last : σ}
      (short : Text.byteLength text < target) (drawn : piece? source = some (front, moved))
      (others : Grows target (text ++ front) moved final last) :
      Grows target text source final last

theorem chars_zero (source : σ) : chars 0 source = ([], source) := by
  rw [chars]

/-- As no piece is empty, what is missing falls by the bytes that a piece
takes. -/
theorem chars_of_pos {missing : Nat} (positive : 0 < missing) (source : σ) :
    chars missing source =
      ((piece source).1 ++
          (chars (missing - Text.byteLength (piece source).1) (piece source).2).1,
        (chars (missing - Text.byteLength (piece source).1) (piece source).2).2) := by
  obtain ⟨rest, rfl⟩ := Nat.exists_eq_add_one.mpr positive
  have frontLeast := (piece_takes source).1
  rw [chars]
  cases drawn : piece source with
  | mk front moved =>
      rw [drawn] at frontLeast
      have missingEq : rest - (Text.byteLength front - 1) = rest + 1 - Text.byteLength front := by
        change 1 ≤ Text.byteLength front at frontLeast
        omega
      change (front ++ (chars (rest - (Text.byteLength front - 1)) moved).1,
        (chars (rest - (Text.byteLength front - 1)) moved).2) = _
      rw [missingEq]

/-- Appending comes to an end in exactly one way, the text that `chars` gives
for what is missing. -/
theorem grows_iff {target : Nat} {text final : List Char} {source last : σ} :
    Grows target text source final last ↔
      final = text ++ (chars (target - Text.byteLength text) source).1 ∧
        last = (chars (target - Text.byteLength text) source).2 := by
  constructor
  · intro grows
    induction grows with
    | enough long =>
        rw [Nat.sub_eq_zero_of_le long, chars_zero]
        exact ⟨(List.append_nil _).symm, rfl⟩
    | more short drawn _ ih =>
        obtain ⟨finalEq, lastEq⟩ := ih
        rw [piece?_eq, Option.some.injEq] at drawn
        rw [Text.byteLength_append, Nat.sub_add_eq, List.append_assoc] at finalEq
        rw [Text.byteLength_append, Nat.sub_add_eq] at lastEq
        rw [chars_of_pos (Nat.sub_pos_of_lt short), drawn]
        exact ⟨finalEq, lastEq⟩
  · rintro ⟨rfl, rfl⟩
    induction missing : target - Text.byteLength text using Nat.strongRecOn
      generalizing text source with
    | ind bytes ih =>
        subst missing
        by_cases long : target ≤ Text.byteLength text
        · rw [Nat.sub_eq_zero_of_le long, chars_zero, List.append_nil]
          exact .enough long
        · have short : Text.byteLength text < target := Nat.lt_of_not_le long
          have frontLeast := (piece_takes source).1
          have fewer : target - Text.byteLength (text ++ (piece source).1) <
              target - Text.byteLength text := by
            rw [Text.byteLength_append]
            omega
          rw [chars_of_pos (Nat.sub_pos_of_lt short), ← Nat.sub_add_eq,
            ← Text.byteLength_append, ← List.append_assoc]
          exact .more short (piece?_eq source) (ih _ fewer rfl)

/-- At least as many bytes as are missing, of which the last piece takes the
last one. -/
theorem byteLength_chars (missing : Nat) (source : σ) :
    missing ≤ Text.byteLength (chars missing source).1 ∧
      (0 < missing → Text.byteLength (chars missing source).1 ≤ missing + 153) := by
  induction missing using Nat.strongRecOn generalizing source with
  | ind missing ih =>
      by_cases positive : 0 < missing
      · obtain ⟨frontLeast, frontMost⟩ := piece_takes source
        rw [chars_of_pos positive, Text.byteLength_append]
        generalize Text.byteLength (piece source).1 = frontLength at frontLeast frontMost ⊢
        by_cases last : missing ≤ frontLength
        · rw [Nat.sub_eq_zero_of_le last, chars_zero, Text.byteLength_nil]
          omega
        · have fewer : missing - frontLength < missing := by omega
          obtain ⟨atLeast, atMost⟩ := ih _ fewer (piece source).2
          have restMost := atMost (by omega)
          omega
      · have none : missing = 0 := by omega
        subst none
        exact ⟨Nat.zero_le _, fun positive => absurd positive (Nat.lt_irrefl 0)⟩

/-- The draws do not depend on how much is missing in the end. -/
theorem chars_isPrefix {short long : Nat} (ordered : short ≤ long) (source : σ) :
    (chars short source).1 <+: (chars long source).1 := by
  induction short using Nat.strongRecOn generalizing long source with
  | ind short ih =>
      by_cases positive : 0 < short
      · have frontLeast := (piece_takes source).1
        rw [chars_of_pos positive, chars_of_pos (Nat.lt_of_lt_of_le positive ordered),
          List.prefix_append_right_inj]
        exact ih _ (by omega) (Nat.sub_le_sub_right ordered _) (piece source).2
      · have none : short = 0 := by omega
        subst none
        rw [chars_zero]
        exact List.nil_prefix

theorem generate?_of_fits {length : Nat} (room : fits length = true) (source : σ) :
    generate? length source =
      (some (String.ofList (chars length source).1), (chars length source).2) := by
  unfold generate?
  rw [if_pos room]
  rfl

theorem fits_of_le {short long : Nat} (ordered : short ≤ long) (room : fits long = true) :
    fits short = true := by
  simp only [fits, decide_eq_true_eq] at room ⊢
  omega

/-- As long as there can be room for the longer one, two texts drawn from the
same source are found by appending pieces, which comes to an end in exactly one
way and never meets a roll that stands for none.  The longer text begins with
the shorter one, which has all the bytes that were asked for and at most 153
more. -/
theorem generate?_bounds (source : σ) {short long : Nat} (ordered : short ≤ long)
    (room : fits long = true) :
    ∃ brief full briefLast fullLast,
      generate? short source = (some brief, briefLast) ∧
      generate? long source = (some full, fullLast) ∧
      (∀ final last, Grows short [] source final last ↔
        final = brief.toList ∧ last = briefLast) ∧
      (∀ final last, Grows long [] source final last ↔
        final = full.toList ∧ last = fullLast) ∧
      brief.toList <+: full.toList ∧
      short ≤ brief.utf8ByteSize ∧
      (0 < short → brief.utf8ByteSize ≤ short + 153) := by
  refine ⟨_, _, _, _, generate?_of_fits (fits_of_le ordered room) source,
    generate?_of_fits room source, ?_, ?_, ?_, ?_⟩
  · intro final last
    rw [grows_iff, String.toList_ofList, Text.byteLength_nil, Nat.sub_zero, List.nil_append]
  · intro final last
    rw [grows_iff, String.toList_ofList, Text.byteLength_nil, Nat.sub_zero, List.nil_append]
  · rw [String.toList_ofList, String.toList_ofList]
    exact chars_isPrefix ordered source
  · rw [← Text.byteLength_toList, String.toList_ofList]
    exact byteLength_chars short source

theorem generate?_bounds_splitMix :
    3 ≤ 20 ∧ fits 20 = true ∧
      ∃ brief full, (generate? 3 (SplitMix.mk 0)).1 = some brief ∧
        (generate? 20 (SplitMix.mk 0)).1 = some full ∧
        (∃ last, Grows 3 [] (SplitMix.mk 0) brief.toList last) ∧
        brief.toList <+: full.toList ∧ 3 ≤ brief.utf8ByteSize ∧ brief.utf8ByteSize ≤ 156 := by
  have ordered : 3 ≤ 20 := by decide
  have room : fits 20 = true := by decide
  obtain ⟨brief, full, briefLast, fullLast, briefEq, fullEq, briefGrows, _, leads, atLeast,
    atMost⟩ := generate?_bounds (SplitMix.mk 0) ordered room
  refine ⟨ordered, room, brief, full, by rw [briefEq], by rw [fullEq], ⟨briefLast, ?_⟩, leads,
    atLeast, atMost (by decide)⟩
  exact (briefGrows brief.toList briefLast).mpr ⟨rfl, rfl⟩

end SampleText

end MaximalMunch
