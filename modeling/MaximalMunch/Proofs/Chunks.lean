import MaximalMunch.Proofs.Push

/-!
# Texts that arrive in pieces

A push scanner is fed what has arrived of a text, and pauses at its end without
being told that anything ends there.  It then owes its caller the tokens that
it has not reported yet.  These are the last tokens of the whole text, whatever
will still arrive, because a walk that has not been finished remembers only what
failed on characters that it has seen.
-/

namespace MaximalMunch

namespace Table

/-- Every token takes at least one character. -/
theorem Munched.length_le {table : Table} {offset : Nat} {ahead : List Char}
    {tokens : List Token} (munched : table.Munched offset ahead tokens) :
    tokens.length ≤ ahead.length := by
  induction munched with
  | nil => exact Nat.le_refl 0
  | cons split first _ ih =>
      have positive := List.length_pos_iff.mpr first.nonempty
      rw [split, List.length_append, List.length_cons]
      omega

/-- Longest match takes at most one character more than were read up to a point
from which the text is barren. -/
theorem Munches.length_le {table : Table} {ahead read rest word : List Char} {kind : KindId}
    {state : StateId} (munches : table.Munches ahead word kind) (split : read ++ rest = ahead)
    (runs : table.run? table.start read = some state) (barren : table.Barren state rest) :
    word.length ≤ read.length + 1 := by
  subst split
  cases munches with
  | unrecognized _ _ => exact Nat.le_add_left 1 read.length
  | recognized leads accepted _ =>
      refine Nat.le_of_not_lt fun tooLong => ?_
      obtain ⟨behind, rfl⟩ := List.prefix_of_prefix_length_le (List.prefix_append read rest)
        leads (by omega)
      have behindNonempty : behind ≠ [] := by
        rintro rfl
        rw [List.append_nil] at tooLong
        omega
      exact barren.not_accepts read runs behindNonempty
        ((List.prefix_append_right_inj read).mp leads) accepted

end Table

/-- When it takes the character `c` to emit a token, what follows `c` follows the
token too. -/
theorem Walk.Emission.exists_after_eq {table : Table} {before ahead rest : List Char}
    {c : Char} (emission : Emission table before ahead)
    (aheadEq : emission.matched ++ emission.tail ++ c :: rest = ahead) :
    ∃ again, emission.after = again ++ rest := by
  have reaches := emission.munches.length_le emission.ahead_eq emission.tracks.run?_eq
    emission.barren
  have sameText : emission.word ++ emission.after =
      (emission.matched ++ emission.tail ++ [c]) ++ rest := by
    rw [List.append_assoc _ [c] rest, List.singleton_append, aheadEq]
    exact emission.split.symm
  obtain ⟨again, offeredEq⟩ := List.prefix_of_prefix_length_le
    ⟨emission.after, sameText⟩ (List.prefix_append _ rest) (by
      rw [List.length_append]
      exact reaches)
  have behindWord : emission.word ++ emission.after = emission.word ++ (again ++ rest) := by
    rw [sameText, ← offeredEq, List.append_assoc]
  exact ⟨again, List.append_cancel_left behindWord⟩

namespace PushScanner

variable {table : Table}

/-- The scanner is fed the character of the text at its cursor, again and again
until its cursor is at the end of the text.  It reports these tokens and is left
as `paused`. -/
inductive Fed (text : List Char) :
    PushScanner table → List Token → PushScanner table → Prop
  | ended {scanner : PushScanner table}
      (behind : Text.dropBytes? scanner.cursor text = some []) : Fed text scanner [] scanner
  | more {scanner next paused : PushScanner table} {c : Char} {left : List Char}
      {tokens : List Token} (ahead : Text.dropBytes? scanner.cursor text = some (c :: left))
      (added : scanner.add c = (.more, next)) (later : Fed text next tokens paused) :
      Fed text scanner tokens paused
  | done {scanner next paused : PushScanner table} {c : Char} {left : List Char}
      {token : Token} {tokens : List Token}
      (ahead : Text.dropBytes? scanner.cursor text = some (c :: left))
      (added : scanner.add c = (.done, next)) (reported : next.token = some token)
      (later : Fed text next tokens paused) :
      Fed text scanner (token :: tokens) paused

/-- `seen` has arrived already.  Each further chunk, when it arrives, is made use
of up to its end. -/
inductive FedChunks : List Char → PushScanner table → List (List Char) → List Token →
    PushScanner table → Prop
  | nil {seen : List Char} {scanner : PushScanner table} :
      FedChunks seen scanner [] [] scanner
  | cons {seen chunk : List Char} {chunks : List (List Char)}
      {scanner paused last : PushScanner table} {tokens later : List Token}
      (first : Fed (seen ++ chunk) scanner tokens paused)
      (others : FedChunks (seen ++ chunk) paused chunks later last) :
      FedChunks seen scanner (chunk :: chunks) (tokens ++ later) last

variable {scanner paused last : PushScanner table} {text seen left more rest : List Char}
  {tokens later : List Token} {chunks : List (List Char)}

theorem Fed.behind (fed : Fed text scanner tokens paused) :
    Text.dropBytes? paused.cursor text = some [] := by
  induction fed with
  | ended behind => exact behind
  | more _ _ _ ih => exact ih
  | done _ _ _ _ ih => exact ih

/-- There is only one way to feed a text. -/
theorem Fed.unique {others : List Token} (fed : Fed text scanner tokens paused)
    (fedOther : Fed text scanner others last) : tokens = others ∧ paused = last := by
  induction fed generalizing others with
  | ended behind =>
      cases fedOther with
      | ended _ => exact ⟨rfl, rfl⟩
      | more ahead _ _ => cases behind.symm.trans ahead
      | done ahead _ _ _ => cases behind.symm.trans ahead
  | more ahead added _ ih =>
      cases fedOther with
      | ended behind => cases behind.symm.trans ahead
      | more otherAhead otherAdded otherLater =>
          cases ahead.symm.trans otherAhead
          cases added.symm.trans otherAdded
          exact ih otherLater
      | done otherAhead otherAdded _ _ =>
          cases ahead.symm.trans otherAhead
          cases added.symm.trans otherAdded
  | done ahead added reported _ ih =>
      cases fedOther with
      | ended behind => cases behind.symm.trans ahead
      | more otherAhead otherAdded _ =>
          cases ahead.symm.trans otherAhead
          cases added.symm.trans otherAdded
      | done otherAhead otherAdded otherReported otherLater =>
          cases ahead.symm.trans otherAhead
          cases added.symm.trans otherAdded
          cases reported.symm.trans otherReported
          obtain ⟨rfl, rfl⟩ := ih otherLater
          exact ⟨rfl, rfl⟩

/-- A pause makes no difference. -/
theorem Fed.append (fed : Fed text scanner tokens paused)
    (continued : Fed (text ++ more) paused later last) :
    Fed (text ++ more) scanner (tokens ++ later) last := by
  induction fed with
  | ended _ => exact continued
  | more ahead added _ ih =>
      exact .more (Text.dropBytes?_append_of_eq_some ahead more) added (ih continued)
  | done ahead added reported _ ih =>
      exact .done (Text.dropBytes?_append_of_eq_some ahead more) added reported (ih continued)

/-- Feeding chunks is feeding the text that they make up. -/
theorem FedChunks.fed (fedChunks : FedChunks seen scanner chunks tokens last)
    (behind : Text.dropBytes? scanner.cursor seen = some []) :
    Fed (seen ++ chunks.flatten) scanner tokens last := by
  induction fedChunks with
  | nil =>
      rw [List.flatten_nil, List.append_nil]
      exact .ended behind
  | cons first _ ih =>
      rw [List.flatten_cons, ← List.append_assoc]
      exact first.append (ih first.behind)

/-- The scanner has read the text except for `rest`, and `owed` are the tokens of
the text that it has not reported yet. -/
def Owes (scanner : PushScanner table) (text rest : List Char) (owed : List Token) : Prop :=
  ∃ before ahead matched tail, text = before ++ ahead ∧
    scanner.walk.Underway table before ahead matched tail rest ∧
    table.Munched (Text.byteLength before) ahead owed

variable {owed : List Token}

theorem fresh_owes (table : Table) (text : String) :
    (fresh table).Owes text.toList text.toList (tokenize table text) :=
  ⟨[], text.toList, [], [], rfl, Walk.startAt_restsAt table [] text.toList,
    tokenize_munched table text⟩

/-- What the scanner has read ends at its cursor. -/
theorem Owes.dropBytes?_cursor (owes : scanner.Owes (text ++ more) (left ++ more) owed) :
    Text.dropBytes? scanner.cursor text = some left := by
  obtain ⟨before, ahead, matched, tail, textEq, underway, _⟩ := owes
  refine Text.dropBytes?_eq_some_iff.mpr
    ⟨before ++ (matched ++ tail), ?_, underway.cursor_eq.symm⟩
  have extendedEq : text ++ more = before ++ (matched ++ tail) ++ left ++ more := by
    rw [textEq, ← underway.ahead_eq]
    simp
  exact List.append_cancel_right extendedEq

/-- Adding the next character either reports nothing, or reports the first token
that is owed and goes back by what has to be read again. -/
theorem Owes.add {c : Char} (owes : scanner.Owes text (c :: rest) owed) :
    (∃ next, scanner.add c = (.more, next) ∧ next.Owes text rest owed) ∨
    ∃ next token others again, scanner.add c = (.done, next) ∧
      next.token = some token ∧ owed = token :: others ∧
      next.Owes text (again ++ rest) others := by
  obtain ⟨before, ahead, matched, tail, textEq, underway, munched⟩ := owes
  rcases underway.step_cases with
    ⟨next, stepEq, _, _, extended⟩ | ⟨emission, stepEq, _, matchedEq, tailEq⟩
  · left
    refine ⟨{ scanner with walk := next }, by rw [PushScanner.add, stepEq], ?_⟩
    rcases extended with extended | extended
    · exact ⟨before, ahead, _, _, textEq, extended, munched⟩
    · exact ⟨before, ahead, _, _, textEq, extended, munched⟩
  · right
    obtain ⟨others, owedEq, othersMunched⟩ := emission.exists_eq_cons munched
    have aheadEq : emission.matched ++ emission.tail ++ c :: rest = ahead := by
      rw [matchedEq, tailEq]
      exact underway.ahead_eq
    obtain ⟨again, afterEq⟩ := emission.exists_after_eq aheadEq
    refine ⟨⟨emission.next, some emission.token⟩, emission.token, others, again,
      by rw [PushScanner.add, stepEq], rfl, owedEq, ?_⟩
    rw [← afterEq]
    refine ⟨before ++ emission.word, emission.after, [], [], ?_, emission.restsAt,
      othersMunched⟩
    rw [textEq, emission.text_eq]

/-- Feeding what has arrived comes to its end.  It reports tokens that are owed,
in order, and what it does not report is still owed when more arrives. -/
theorem Owes.exists_fed {scanner : PushScanner table} {left : List Char} {owed : List Token}
    (owes : scanner.Owes (text ++ more) (left ++ more) owed) :
    ∃ tokens paused others, Fed text scanner tokens paused ∧ owed = tokens ++ others ∧
      paused.Owes (text ++ more) more others := by
  have cursorAt := owes.dropBytes?_cursor
  cases left with
  | nil => exact ⟨[], scanner, owed, .ended cursorAt, rfl, owes⟩
  | cons c left =>
      rw [List.cons_append] at owes
      rcases owes.add with
        ⟨next, added, nextOwes⟩ | ⟨next, token, rest, again, added, reported, rfl, nextOwes⟩
      · obtain ⟨tokens, paused, others, fed, owedEq, pausedOwes⟩ := nextOwes.exists_fed
        exact ⟨tokens, paused, others, .more cursorAt added fed, owedEq, pausedOwes⟩
      · rw [← List.append_assoc] at nextOwes
        obtain ⟨tokens, paused, others, fed, restEq, pausedOwes⟩ := nextOwes.exists_fed
        refine ⟨token :: tokens, paused, others, .done cursorAt added reported fed, ?_,
          pausedOwes⟩
        rw [restEq, List.cons_append]
-- A report leaves fewer tokens to be owed, any other character leaves less to be read.
termination_by (owed.length, left.length)

theorem Owes.exists_fedChunks
    (owes : scanner.Owes (seen ++ (chunks.flatten ++ more)) (chunks.flatten ++ more) owed) :
    ∃ tokens last, FedChunks seen scanner chunks tokens last := by
  induction chunks generalizing scanner seen owed with
  | nil => exact ⟨[], scanner, .nil⟩
  | cons chunk chunks ih =>
      rw [List.flatten_cons, List.append_assoc, ← List.append_assoc] at owes
      obtain ⟨tokens, paused, others, fed, _, pausedOwes⟩ := owes.exists_fed
      obtain ⟨later, last, fedChunks⟩ := ih pausedOwes
      exact ⟨tokens ++ later, last, .cons fed fedChunks⟩

/-- Going on to the end of the text, and signalling it, reports all that is
owed. -/
theorem Owes.replay?_eq (owes : scanner.Owes text rest owed) {count : Nat}
    (enough : owed.length < count) : scanner.replay? text count = some owed := by
  induction count generalizing scanner rest owed with
  | zero => omega
  | succ count ih =>
      obtain ⟨before, ahead, matched, tail, rfl, underway, munched⟩ := owes
      rw [replay?, cursor, underway.dropBytes?_cursor, Option.bind_some]
      by_cases ended : ahead = []
      · subst ended
        have nothingOwed : owed = [] := munched.unique .nil
        have allRead : rest = [] := (List.append_eq_nil_iff.mp underway.ahead_eq).2
        subst nothingOwed allRead
        rw [feed, PushScanner.finish, underway.finish_nil]
      · obtain ⟨emission, taken, munchEq⟩ := underway.munch ended 0
        obtain ⟨others, rfl, othersMunched⟩ := emission.exists_eq_cons munched
        rw [feed_eq_munch scanner rest 0, munchEq]
        have othersOwed : Owes ⟨emission.next, some emission.token⟩ (before ++ ahead)
            emission.after others :=
          ⟨before ++ emission.word, emission.after, [], [],
            by rw [emission.text_eq], emission.restsAt, othersMunched⟩
        rw [List.length_cons] at enough
        simp only [ih othersOwed (by omega)]
        rfl

theorem fresh_owes_append (table : Table) (seen more : String) :
    (fresh table).Owes (seen.toList ++ more.toList) (seen.toList ++ more.toList)
      (tokenize table (seen ++ more)) := by
  rw [← String.toList_append]
  exact fresh_owes table (seen ++ more)

theorem Fed.cursor_eq {seen : String} (fed : Fed seen.toList scanner tokens paused) :
    paused.cursor = seen.utf8ByteSize := by
  obtain ⟨before, textEq, located⟩ := Text.dropBytes?_eq_some_iff.mp fed.behind
  rw [List.append_nil] at textEq
  rw [← located, ← textEq, Text.byteLength_toList]

/-- A fresh scanner can be fed any text, and owes what is then missing of the
tokens of any longer one. -/
theorem exists_fed_fresh (table : Table) (seen : String) :
    ∃ tokens paused, Fed seen.toList (fresh table) tokens paused ∧
      ∀ more : String, ∃ missing, tokenize table (seen ++ more) = tokens ++ missing ∧
        paused.Owes (seen.toList ++ more.toList) more.toList missing := by
  obtain ⟨tokens, paused, _, fed, _, _⟩ := (fresh_owes_append table seen "").exists_fed
  refine ⟨tokens, paused, fed, fun more => ?_⟩
  obtain ⟨others, last, missing, fedMore, tokensEq, pausedOwes⟩ :=
    (fresh_owes_append table seen more).exists_fed
  -- What is to follow has no part in the feeding, so it was the same one.
  obtain ⟨rfl, rfl⟩ := fedMore.unique fed
  exact ⟨missing, tokensEq, pausedOwes⟩

theorem fedChunks_fresh_iff {seen : String} (flattenEq : chunks.flatten = seen.toList) :
    FedChunks [] (fresh table) chunks tokens last ↔
      Fed seen.toList (fresh table) tokens last := by
  have whole {reported : List Token} {stopped : PushScanner table}
      (fedChunks : FedChunks [] (fresh table) chunks reported stopped) :
      Fed seen.toList (fresh table) reported stopped := by
    rw [← flattenEq]
    exact fedChunks.fed rfl
  constructor
  · exact whole
  · intro fed
    have owes := fresh_owes_append table seen ""
    rw [← flattenEq] at owes
    obtain ⟨reported, stopped, fedChunks⟩ :
        ∃ reported stopped, FedChunks [] (fresh table) chunks reported stopped :=
      Owes.exists_fedChunks owes
    obtain ⟨rfl, rfl⟩ := (whole fedChunks).unique fed
    exact fedChunks

/-- What is reported of a text before its end is signalled does not depend on
what follows.  It does not depend either on the chunks in which the text
arrives, and going on with any further text reports exactly the tokens that are
still missing. -/
theorem fed_fresh_online (table : Table) (seen : String) :
    ∃ tokens paused,
      (∀ others last, Fed seen.toList (fresh table) others last ↔
        others = tokens ∧ last = paused) ∧
      paused.cursor = seen.utf8ByteSize ∧
      (∀ chunks others last, chunks.flatten = seen.toList →
        (FedChunks [] (fresh table) chunks others last ↔ others = tokens ∧ last = paused)) ∧
      ∀ more, ∃ missing, tokenize table (seen ++ more) = tokens ++ missing ∧
        ∀ count, (seen ++ more).length < count →
          paused.replay? (seen ++ more).toList count = some missing := by
  obtain ⟨tokens, paused, fed, online⟩ := exists_fed_fresh table seen
  have only (others : List Token) (last : PushScanner table) :
      Fed seen.toList (fresh table) others last ↔ others = tokens ∧ last = paused := by
    constructor
    · exact fun fedOther => fedOther.unique fed
    · rintro ⟨rfl, rfl⟩
      exact fed
  refine ⟨tokens, paused, only, fed.cursor_eq, ?_, fun more => ?_⟩
  · intro chunks others last flattenEq
    rw [fedChunks_fresh_iff flattenEq, only]
  · obtain ⟨missing, tokensEq, owes⟩ := online more
    refine ⟨missing, tokensEq, fun count enough => ?_⟩
    rw [String.toList_append]
    apply owes.replay?_eq
    have fewTokens := (tokenize_munched table (seen ++ more)).length_le
    rw [tokensEq, List.length_append, String.length_toList] at fewTokens
    omega

end PushScanner

end MaximalMunch
