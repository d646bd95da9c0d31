import MaximalMunch.Proofs.Tokenize
import MaximalMunch.Scan.Push

/-!
# Tokens that are pushed

Feeding characters until a token is completed does what a request for a token
does, and the cursor of the scanner tells its caller where to go on.  Both
protocols therefore split every text in the same way.
-/

namespace MaximalMunch

namespace PushScanner

variable {table : Table} {scanner : PushScanner table} {before ahead : List Char}

theorem feed_eq_munch (scanner : PushScanner table) (rest : List Char) (steps : Nat) :
    scanner.feed rest =
      match scanner.walk.munch table steps rest with
      | (none, walk, _) => (.more, { scanner with walk := walk })
      | (some token, walk, _) => (.done, ⟨walk, some token⟩) := by
  induction rest generalizing scanner steps with
  | nil =>
      rw [feed, finish, Walk.munch]
      rcases scanner.walk.finish table with ⟨_ | token, walk⟩ <;> rfl
  | cons c rest ih =>
      rw [feed, add, Walk.munch]
      rcases scanner.walk.step table c with ⟨_ | token, walk⟩
      · exact ih { scanner with walk := walk } (steps + 1)
      · rfl

/-- Feeding what follows a token completes the next one, and the cursor has then
moved on by its length. -/
theorem feed_of_ne_nil (scanner : PushScanner table)
    (rests : scanner.walk.RestsAt table before ahead) (nonempty : ahead ≠ []) :
    ∃ emission : Walk.Emission table before ahead,
      scanner.feed ahead = (.done, ⟨emission.next, some emission.token⟩) ∧
      Text.dropBytes? (emission.next.cursor - scanner.cursor) ahead =
        some emission.after := by
  obtain ⟨emission, taken, munchEq⟩ := rests.munch nonempty 0
  refine ⟨emission, ?_, ?_⟩
  · rw [feed_eq_munch scanner ahead 0, munchEq]
  · rw [cursor, rests.cursor_eq]
    exact emission.dropBytes?_eq

theorem feed_nil (scanner : PushScanner table)
    (rests : scanner.walk.RestsAt table before []) :
    scanner.feed [] = (.more, scanner) := by
  rw [feed_eq_munch scanner [] 0, rests.munch_nil]

/-- Feeding a text to its end, again from the cursor on after every token,
completes the tokens of repeated longest match. -/
theorem collect?_munched (scanner : PushScanner table)
    (rests : scanner.walk.RestsAt table before ahead) {count : Nat}
    (enough : ahead.length < count) :
    ∃ tokens, scanner.collect? count ahead = some tokens ∧
      table.Munched (Text.byteLength before) ahead tokens := by
  induction count generalizing scanner before ahead with
  | zero => omega
  | succ count ih =>
      rw [collect?]
      by_cases last : ahead = []
      · subst last
        rw [scanner.feed_nil rests]
        exact ⟨[], rfl, .nil⟩
      · obtain ⟨emission, feedEq, rewound⟩ := scanner.feed_of_ne_nil rests last
        have shorter := emission.length_after_lt
        obtain ⟨tokens, collected, munched⟩ :=
          ih ⟨emission.next, some emission.token⟩ emission.restsAt (by omega)
        refine ⟨emission.token :: tokens, ?_, emission.munched munched⟩
        simp only [feedEq]
        change (Text.dropBytes? (emission.next.cursor - scanner.cursor) ahead).bind _ = _
        rw [rewound, Option.bind_some, collected]
        rfl

/-- The tokens that are completed when the whole text is cut at the cursor after
every token, and its characters from there on are fed.  There is no answer when
the text has no cut there, or when more than `count` tokens are completed. -/
def replay? (text : List Char) : Nat → PushScanner table → Option (List Token)
  | 0, _ => none
  | count + 1, scanner =>
      (Text.dropBytes? scanner.cursor text).bind fun rest =>
        match scanner.feed rest with
        | (.more, _) => some []
        | (.done, next) => (replay? text count next).map (next.token.toList ++ ·)

/-- It makes no difference whether what is left of the text is cut behind each
token or the whole text is. -/
theorem replay?_eq_collect? (scanner : PushScanner table)
    (rests : scanner.walk.RestsAt table before ahead) (count : Nat) :
    scanner.replay? (before ++ ahead) count = scanner.collect? count ahead := by
  induction count generalizing scanner before ahead with
  | zero => rfl
  | succ count ih =>
      have cut : Text.dropBytes? scanner.cursor (before ++ ahead) = some ahead :=
        rests.dropBytes?_cursor
      rw [replay?, collect?, cut, Option.bind_some]
      by_cases last : ahead = []
      · subst last
        rw [scanner.feed_nil rests]
      · obtain ⟨emission, feedEq, rewound⟩ := scanner.feed_of_ne_nil rests last
        have replayed := ih ⟨emission.next, some emission.token⟩ emission.restsAt
        rw [emission.text_eq] at replayed
        simp only [feedEq]
        change _ = (Text.dropBytes? (emission.next.cursor - scanner.cursor) ahead).bind _
        rw [rewound, Option.bind_some, replayed]

end PushScanner

/-- Pushing and pulling agree: feeding the characters of a text one at a time,
from the cursor on after every token, comes to an end by itself, never leaves
the text, and completes the tokens that requests answer. -/
theorem tokenizePushed_eq_tokenize (table : Table) (text : String) :
    tokenizePushed table text = some (tokenize table text) ∧
    ∀ count, text.length < count →
      (PushScanner.fresh table).collect? count text.toList =
          some (tokenize table text) ∧
        (PushScanner.fresh table).replay? text.toList count =
          some (tokenize table text) := by
  have rests := Walk.startAt_restsAt table [] text.toList
  have collects : ∀ count, text.length < count →
      (PushScanner.fresh table).collect? count text.toList =
        some (tokenize table text) := by
    intro count enough
    obtain ⟨tokens, collected, munched⟩ :=
      PushScanner.collect?_munched (PushScanner.fresh table) rests
        (by rwa [String.length_toList])
    rw [collected, munched.unique (tokenize_munched table text)]
  refine ⟨collects (text.length + 1) (Nat.lt_succ_self text.length), ?_⟩
  intro count enough
  have replays := PushScanner.replay?_eq_collect? (PushScanner.fresh table) rests count
  exact ⟨collects count enough, replays.trans (collects count enough)⟩

end MaximalMunch
