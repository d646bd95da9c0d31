import MaximalMunch.Proofs.Recognition

/-!
# Longest match

Longest match takes from the front of a text the longest accepted word, or a
single character when no leading word is accepted.  Repeating it splits the
whole text into tokens, and leaves no choice anywhere.

The same is said a second time about byte offsets: tokens tile the text, and
each of them ends at the largest offset at which an accepted word ends.  The
two descriptions agree.
-/

namespace MaximalMunch

namespace Table

/-- From the front of the text `ahead`, longest match takes `word` and
classifies it as `kind`. -/
inductive Munches (table : Table) (ahead : List Char) : List Char → KindId → Prop
  | recognized {word : List Char} {kind : KindId}
      (leads : word <+: ahead) (accepted : table.Accepts word kind)
      (longest : ∀ longer other, longer <+: ahead → table.Accepts longer other →
        longer.length ≤ word.length) :
      Munches table ahead word kind
  | unrecognized {c : Char} {rest : List Char} (next : ahead = c :: rest)
      (nothing : ∀ word kind, word <+: ahead → ¬ table.Accepts word kind) :
      Munches table ahead [c] KindId.unrecognized

/-- Repeated longest match splits the text `ahead`, which starts at `offset`,
into these tokens. -/
inductive Munched (table : Table) : Nat → List Char → List Token → Prop
  | nil {offset : Nat} : Munched table offset [] []
  | cons {offset : Nat} {ahead word after : List Char} {kind : KindId}
      {tokens : List Token} (split : ahead = word ++ after)
      (first : table.Munches ahead word kind)
      (others : Munched table (offset + Text.byteLength word) after tokens) :
      Munched table offset ahead
        (⟨offset, offset + Text.byteLength word, kind⟩ :: tokens)

variable {table : Table}

theorem Munches.nonempty {ahead word : List Char} {kind : KindId}
    (munches : table.Munches ahead word kind) : word ≠ [] := by
  cases munches with
  | recognized _ accepted _ => exact accepted.1
  | unrecognized _ _ => exact List.cons_ne_nil _ _

theorem Munches.leads {ahead word : List Char} {kind : KindId}
    (munches : table.Munches ahead word kind) : word <+: ahead := by
  cases munches with
  | recognized leads _ _ => exact leads
  | unrecognized next _ => simp [next]

theorem Barren.munches_unrecognized {c : Char} {rest : List Char}
    (barren : table.Barren table.start (c :: rest)) :
    table.Munches (c :: rest) [c] KindId.unrecognized := by
  refine .unrecognized rfl ?_
  intro word kind leads accepted
  exact Barren.not_accepts [] rfl barren accepted.1 leads accepted

/-- An accepted word behind which the text is barren is the longest one. -/
theorem Accepts.munches {word ahead : List Char} {kind : KindId} {state : StateId}
    (accepted : table.Accepts word kind)
    (runs : table.run? table.start word = some state) (barren : table.Barren state ahead) :
    table.Munches (word ++ ahead) word kind := by
  refine .recognized (List.prefix_append word ahead) accepted ?_
  intro longer other leads longerAccepted
  refine Nat.le_of_not_lt fun tooLong => ?_
  obtain ⟨behind, rfl⟩ := List.prefix_of_prefix_length_le
    (List.prefix_append word ahead) leads (Nat.le_of_lt tooLong)
  rw [List.prefix_append_right_inj] at leads
  have behindNonempty : behind ≠ [] := by
    rintro rfl
    simp at tooLong
  exact Barren.not_accepts word runs barren behindNonempty leads longerAccepted

theorem Munches.unique {ahead word other : List Char} {kind otherKind : KindId}
    (munches : table.Munches ahead word kind)
    (munchesOther : table.Munches ahead other otherKind) :
    word = other ∧ kind = otherKind := by
  cases munches with
  | recognized leads accepted longest =>
      cases munchesOther with
      | recognized otherLeads otherAccepted otherLongest =>
          have sameLength : word.length = other.length :=
            Nat.le_antisymm (otherLongest word kind leads accepted)
              (longest other otherKind otherLeads otherAccepted)
          have same : word = other :=
            (List.prefix_of_prefix_length_le leads otherLeads
              (Nat.le_of_eq sameLength)).eq_of_length sameLength
          subst same
          exact ⟨rfl, accepted.kind_unique otherAccepted⟩
      | unrecognized _ nothing => exact absurd accepted (nothing word kind leads)
  | unrecognized next nothing =>
      cases munchesOther with
      | recognized otherLeads otherAccepted _ =>
          exact absurd otherAccepted (nothing other otherKind otherLeads)
      | unrecognized otherNext _ =>
          rw [next, List.cons.injEq] at otherNext
          exact ⟨by rw [otherNext.1], rfl⟩

/-- A text has only one list of longest-match tokens. -/
theorem Munched.unique {offset : Nat} {ahead : List Char} {tokens others : List Token}
    (munched : table.Munched offset ahead tokens)
    (munchedOther : table.Munched offset ahead others) : tokens = others := by
  induction munched generalizing others with
  | nil =>
      cases munchedOther with
      | nil => rfl
      | cons split first _ =>
          exact absurd (List.append_eq_nil_iff.mp split.symm).1 first.nonempty
  | cons split first _ ih =>
      cases munchedOther with
      | nil => exact absurd (List.append_eq_nil_iff.mp split.symm).1 first.nonempty
      | cons otherSplit otherFirst otherRest =>
          obtain ⟨rfl, rfl⟩ := first.unique otherFirst
          have sameAfter := List.append_cancel_left (split.symm.trans otherSplit)
          subst sameAfter
          rw [ih otherRest]

/-- Each token of a text is what longest match takes from the text behind its
start. -/
theorem Munched.exists_munches (before : List Char) {ahead : List Char}
    {tokens : List Token}
    (munched : table.Munched (Text.byteLength before) ahead tokens) {token : Token}
    (member : token ∈ tokens) :
    ∃ tokenBefore tokenAhead word, before ++ ahead = tokenBefore ++ tokenAhead ∧
      table.Munches tokenAhead word token.kind ∧
      token.start = Text.byteLength tokenBefore ∧
      token.stop = Text.byteLength tokenBefore + Text.byteLength word := by
  generalize offsetEq : Text.byteLength before = offset at munched
  induction munched generalizing before with
  | nil => cases member
  | @cons offset ahead word after kind tokens split first _ ih =>
      rcases List.mem_cons.mp member with rfl | member
      · exact ⟨before, ahead, word, rfl, first, offsetEq.symm, by rw [offsetEq]⟩
      · have behindWord : Text.byteLength (before ++ word) =
            offset + Text.byteLength word := by
          rw [Text.byteLength_append, offsetEq]
        rw [split, ← List.append_assoc]
        exact ih (before ++ word) member behindWord

/-- The text between two byte offsets is a word that is accepted as `kind`. -/
def Matches (table : Table) (text : List Char) (start stop : Nat) (kind : KindId) :
    Prop :=
  ∃ word, Text.slice? start stop text = some word ∧ table.Accepts word kind

theorem matches_append_iff {before ahead : List Char} {stop : Nat} {kind : KindId} :
    table.Matches (before ++ ahead) (Text.byteLength before) stop kind ↔
      ∃ word, word <+: ahead ∧ Text.byteLength before + Text.byteLength word = stop ∧
        table.Accepts word kind := by
  constructor
  · rintro ⟨word, sliced, accepted⟩
    obtain ⟨otherBefore, after, sameText, sameStart, stopEq⟩ :=
      Text.slice?_eq_some_iff.mp sliced
    rw [List.append_assoc] at sameText
    obtain ⟨rfl, rfl⟩ := Text.append_inj_of_byteLength_eq sameText sameStart.symm
    exact ⟨word, List.prefix_append word after, stopEq, accepted⟩
  · rintro ⟨word, ⟨after, rfl⟩, stopEq, accepted⟩
    refine ⟨word, Text.slice?_eq_some_iff.mpr ?_, accepted⟩
    exact ⟨before, after, by simp, rfl, stopEq⟩

end Table

namespace Token

/-- The tokens follow each other without a gap from `start` to `stop`. -/
def Tile : Nat → List Token → Nat → Prop
  | start, [], stop => start = stop
  | start, token :: tokens, stop => token.start = start ∧ Tile token.stop tokens stop

/-- The token is the longest match at its start. -/
structure IsLongestMatch (table : Table) (text : List Char) (token : Token) : Prop where
  /-- The token is not empty, and both of its ends are cuts of the text. -/
  covers : ∃ word, Text.slice? token.start token.stop text = some word ∧ word ≠ []
  /-- A recognized token is a match, and no match from its start on is longer. -/
  recognized : token.kind ≠ KindId.unrecognized →
    table.Matches text token.start token.stop token.kind ∧
      ∀ stop kind, table.Matches text token.start stop kind → stop ≤ token.stop
  /-- Exactly where nothing matches is the token unrecognized. -/
  unrecognized_iff : token.kind = KindId.unrecognized ↔
    ∀ stop kind, ¬ table.Matches text token.start stop kind
  /-- An unrecognized token is a single character. -/
  single : token.kind = KindId.unrecognized →
    ∃ c, Text.slice? token.start token.stop text = some [c]

variable {table : Table}

/-- A token that is the longest match at a cut munches what follows the cut. -/
theorem IsLongestMatch.munches {before ahead : List Char} {token : Token}
    (starts : token.start = Text.byteLength before)
    (longest : token.IsLongestMatch table (before ++ ahead)) :
    ∃ word after, ahead = word ++ after ∧ table.Munches ahead word token.kind ∧
      token.stop = Text.byteLength before + Text.byteLength word := by
  obtain ⟨⟨word, sliced, nonempty⟩, recognized, unrecognized_iff, single⟩ := longest
  rw [starts] at sliced recognized unrecognized_iff single
  obtain ⟨otherBefore, after, sameText, sameStart, stopEq⟩ :=
    Text.slice?_eq_some_iff.mp sliced
  rw [List.append_assoc] at sameText
  obtain ⟨rfl, rfl⟩ := Text.append_inj_of_byteLength_eq sameText sameStart.symm
  refine ⟨word, after, rfl, ?_, stopEq.symm⟩
  by_cases unrecognized : token.kind = KindId.unrecognized
  · obtain ⟨c, slicedChar⟩ := single unrecognized
    have wordEq : word = [c] := Option.some.inj (sliced.symm.trans slicedChar)
    subst wordEq
    rw [unrecognized]
    refine .unrecognized rfl ?_
    intro other kind leads accepted
    exact unrecognized_iff.mp unrecognized _ kind
      (Table.matches_append_iff.mpr ⟨other, leads, rfl, accepted⟩)
  · obtain ⟨isMatch, noLonger⟩ := recognized unrecognized
    obtain ⟨found, foundLeads, foundStop, accepted⟩ := Table.matches_append_iff.mp isMatch
    have sameWord : found = word := by
      obtain ⟨foundAfter, foundSplit⟩ := foundLeads
      exact (Text.append_inj_of_byteLength_eq foundSplit (by omega)).1
    subst sameWord
    refine .recognized foundLeads accepted ?_
    intro longer other leads longerAccepted
    have bounded := noLonger _ other
      (Table.matches_append_iff.mpr ⟨longer, leads, rfl, longerAccepted⟩)
    exact (Text.isPrefix_of_byteLength_le leads foundLeads (by omega)).length_le

theorem isLongestMatch_of_munches (fewKinds : table.kindCount ≤ UInt32.size - 2)
    {before ahead word after : List Char} {kind : KindId}
    (split : ahead = word ++ after) (munches : table.Munches ahead word kind) :
    IsLongestMatch table (before ++ ahead)
      ⟨Text.byteLength before, Text.byteLength before + Text.byteLength word, kind⟩ := by
  have sliced : Text.slice? (Text.byteLength before)
      (Text.byteLength before + Text.byteLength word) (before ++ ahead) = some word :=
    Text.slice?_eq_some_iff.mpr ⟨before, after, by simp [split], rfl, rfl⟩
  cases munches with
  | recognized leads accepted longest =>
      obtain ⟨_, state, _, kindEq⟩ := Table.accepts_iff.mp accepted
      have known : kind ≠ KindId.unrecognized :=
        Table.kindOf_ne_unrecognized fewKinds kindEq
      have isMatch : table.Matches (before ++ ahead) (Text.byteLength before)
          (Text.byteLength before + Text.byteLength word) kind :=
        ⟨word, sliced, accepted⟩
      refine ⟨⟨word, sliced, accepted.1⟩, fun _ => ⟨isMatch, ?_⟩, ?_, ?_⟩
      · intro stop other otherMatch
        obtain ⟨longer, longerLeads, rfl, longerAccepted⟩ :=
          Table.matches_append_iff.mp otherMatch
        have shorter := longest longer other longerLeads longerAccepted
        obtain ⟨rest, rfl⟩ := List.prefix_of_prefix_length_le longerLeads leads shorter
        simp
      · constructor
        · intro unrecognized
          exact absurd unrecognized known
        · intro nothing
          exact absurd isMatch (nothing _ kind)
      · intro unrecognized
        exact absurd unrecognized known
  | @unrecognized c rest next nothing =>
      refine ⟨⟨[c], sliced, List.cons_ne_nil c []⟩, ?_, ?_, fun _ => ⟨c, sliced⟩⟩
      · intro known
        exact absurd rfl known
      · refine iff_of_true rfl ?_
        intro stop kind isMatch
        obtain ⟨word, leads, _, accepted⟩ := Table.matches_append_iff.mp isMatch
        exact nothing word kind leads accepted

/-- Tokens that tile the rest of a text and are longest matches are those of
repeated longest match. -/
theorem munched_of_tile {before ahead : List Char} {tokens : List Token}
    (tiles : Tile (Text.byteLength before) tokens (Text.byteLength (before ++ ahead)))
    (longest : ∀ token ∈ tokens, token.IsLongestMatch table (before ++ ahead)) :
    table.Munched (Text.byteLength before) ahead tokens := by
  induction tokens generalizing before ahead with
  | nil =>
      have aheadNil : ahead = [] := by
        rw [← Text.byteLength_eq_zero]
        simp only [Tile, Text.byteLength_append] at tiles
        omega
      subst aheadNil
      exact .nil
  | cons token tokens ih =>
      obtain ⟨start, stop, kind⟩ := token
      obtain ⟨starts, tilesRest⟩ := tiles
      obtain ⟨word, after, rfl, munches, stops⟩ :=
        (longest _ List.mem_cons_self).munches starts
      change start = Text.byteLength before at starts
      change stop = Text.byteLength before + Text.byteLength word at stops
      subst starts stops
      refine .cons rfl munches ?_
      rw [← Text.byteLength_append]
      apply ih
      · rw [Text.byteLength_append before word, List.append_assoc]
        exact tilesRest
      · intro other member
        rw [List.append_assoc]
        exact longest other (List.mem_cons_of_mem _ member)

theorem tile_of_munched (fewKinds : table.kindCount ≤ UInt32.size - 2)
    {before ahead : List Char} {tokens : List Token}
    (munched : table.Munched (Text.byteLength before) ahead tokens) :
    Tile (Text.byteLength before) tokens (Text.byteLength (before ++ ahead)) ∧
      ∀ token ∈ tokens, token.IsLongestMatch table (before ++ ahead) := by
  generalize offsetEq : Text.byteLength before = offset at munched
  induction munched generalizing before with
  | nil => simp [Tile, offsetEq]
  | @cons offset ahead word after kind tokens split first others ih =>
      subst offsetEq
      obtain ⟨tiles, longest⟩ := ih (Text.byteLength_append before word)
      subst split
      rw [List.append_assoc] at tiles longest
      refine ⟨⟨rfl, tiles⟩, ?_⟩
      intro token member
      rcases List.mem_cons.mp member with rfl | member
      · exact isLongestMatch_of_munches fewKinds rfl first
      · exact longest token member

end Token

/-- The tokens tile the text, and each is the longest match at its start. -/
structure IsMaximalMunch (table : Table) (text : String) (tokens : List Token) :
    Prop where
  tiles : Token.Tile 0 tokens text.utf8ByteSize
  longest : ∀ token ∈ tokens, token.IsLongestMatch table text.toList

/-- Longest match in byte offsets is repeated longest match on characters. -/
theorem isMaximalMunch_iff_munched {table : Table}
    (fewKinds : table.kindCount ≤ UInt32.size - 2) {text : String}
    {tokens : List Token} :
    IsMaximalMunch table text tokens ↔ table.Munched 0 text.toList tokens := by
  constructor
  · rintro ⟨tiles, longest⟩
    rw [← Text.byteLength_toList] at tiles
    exact @Token.munched_of_tile table [] text.toList tokens tiles longest
  · intro munched
    obtain ⟨tiles, longest⟩ :=
      @Token.tile_of_munched table fewKinds [] text.toList tokens munched
    exact ⟨by simpa using tiles, longest⟩

end MaximalMunch
