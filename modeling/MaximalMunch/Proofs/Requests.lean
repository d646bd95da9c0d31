import MaximalMunch.Proofs.Tokenize

/-!
# Requests in any order

A pull scanner may be bound to another text at any time, also in the middle of a
text or behind its end, and tokens may be requested as often as one likes.  All
that counts is which text was bound last and how many tokens were requested
since then: each request is answered by the token of its number, and the
scanner shows the token that it answered last.
-/

namespace MaximalMunch

namespace PullScanner

variable {table : Table}

/-- Request a token as an iterator does, for which an error is the end. -/
def draw (scanner : PullScanner table) : Option Token × PullScanner table :=
  let (tokens, moved) := scanner.take 1
  (tokens.head?, moved)

/-- What a caller does with a scanner. -/
inductive Action
  | bind (text : String)
  | request
  | draw
  deriving DecidableEq, Repr

inductive Answer
  | bound
  | requested (answer : Except ScanError (Option Token))
  | drawn (token : Option Token)

def act (scanner : PullScanner table) : Action → Answer × PullScanner table
  | .bind text => (.bound, scanner.bind text)
  | .request => (.requested scanner.next.1, scanner.next.2)
  | .draw => (.drawn scanner.draw.1, scanner.draw.2)

/-- Carry out one action after the other. -/
def perform : PullScanner table → List Action → List Answer × PullScanner table
  | scanner, [] => ([], scanner)
  | scanner, action :: actions =>
      let (answer, moved) := scanner.act action
      let (answers, last) := moved.perform actions
      (answer :: answers, last)

/-- The text that was bound last, and the number of tokens requested since. -/
structure Reading where
  text : String
  requests : Nat
  deriving DecidableEq, Repr

namespace Reading

def after (reading : Reading) : Action → Reading
  | .bind text => ⟨text, 0⟩
  | .request => ⟨reading.text, reading.requests + 1⟩
  | .draw => ⟨reading.text, reading.requests + 1⟩

/-- A request is answered by the token of its number, as long as there is
one. -/
def token? (table : Table) (reading : Reading) : Option Token :=
  (tokenize table reading.text)[reading.requests]?

def answer (table : Table) (reading : Reading) : Action → Answer
  | .bind _ => .bound
  | .request => .requested (.ok (reading.token? table))
  | .draw => .drawn (reading.token? table)

def answers (table : Table) : Reading → List Action → List Answer
  | _, [] => []
  | reading, action :: actions =>
      reading.answer table action :: answers table (reading.after action) actions

end Reading

/-- The token answered last since a text was bound, when it was `last` before
this answer. -/
def Answer.lastToken (last : Option Token) : Answer → Option Token
  | .bound => none
  | .requested answer => answer.toOption.join.or last
  | .drawn token => token.or last

/-- The scanner shows the token, together with the part of the text that it
covers, or shows that there is none. -/
def Shows (scanner : PullScanner table) (text : String) : Option Token → Prop
  | none =>
      scanner.token = none ∧ scanner.tokenStart = 0 ∧ scanner.tokenStop = 0 ∧
        scanner.tokenText = ""
  | some token =>
      scanner.token = some token ∧ scanner.tokenStart = token.start ∧
        scanner.tokenStop = token.stop ∧
        Text.slice? token.start token.stop text.toList = some scanner.tokenText.toList

/-- The scanner has answered the requests that were made since its text was
bound, and holds the token that it answered last. -/
structure Keeps (scanner : PullScanner table) (reading : Reading) (last : Option Token) :
    Prop where
  text_eq : scanner.text = reading.text
  token_eq : scanner.token = last
  fits : ∀ token ∈ last, ∃ word,
    Text.slice? token.start token.stop reading.text.toList = some word
  /-- Either the tokens that are left are those of the text ahead, or there are
  none left. -/
  left : (∃ before ahead, scanner.RestsAt before ahead ∧
      table.Munched (Text.byteLength before) ahead
        ((tokenize table reading.text).drop reading.requests)) ∨
    scanner.finished = true ∧ (tokenize table reading.text).length ≤ reading.requests

theorem ofText_keeps (table : Table) (text : String) :
    (ofText table text).Keeps ⟨text, 0⟩ none where
  text_eq := rfl
  token_eq := rfl
  fits _ member := nomatch member
  left := .inl ⟨[], text.toList, ofText_restsAt table text, tokenize_munched table text⟩

variable {scanner : PullScanner table} {reading : Reading} {last : Option Token}

theorem draw_of_next_eq_ok {token : Option Token} {moved : PullScanner table}
    (nextEq : scanner.next = (.ok token, moved)) : scanner.draw = (token, moved) := by
  cases token with
  | none => simp [draw, take, nextEq]
  | some token => simp [draw, take, nextEq]

theorem perform_cons (scanner : PullScanner table) (action : Action) (actions : List Action) :
    scanner.perform (action :: actions) =
      ((scanner.act action).1 :: ((scanner.act action).2.perform actions).1,
        ((scanner.act action).2.perform actions).2) :=
  rfl

/-- A request is answered by the token of its number, never by an error, and is
counted. -/
theorem Keeps.next (keeps : scanner.Keeps reading last) :
    ∃ moved, scanner.next = (.ok (reading.token? table), moved) ∧
      moved.Keeps ⟨reading.text, reading.requests + 1⟩ ((reading.token? table).or last) := by
  obtain ⟨text_eq, token_eq, fits, left⟩ := keeps
  rcases left with ⟨before, ahead, rests, munched⟩ | ⟨finished, exhausted⟩
  · by_cases ended : ahead = []
    -- The first request behind the last token; it sets the flag that answers later ones.
    · subst ended
      have noneLeft : (tokenize table reading.text).drop reading.requests = [] :=
        munched.unique .nil
      have exhausted := List.drop_eq_nil_iff.mp noneLeft
      have nothing : reading.token? table = none := List.getElem?_eq_none exhausted
      rw [nothing, Option.none_or]
      refine ⟨_, rests.next_nil, text_eq, token_eq, fits, .inr ⟨rfl, ?_⟩⟩
      exact Nat.le_succ_of_le exhausted
    · obtain ⟨emission, moved, nextEq, movedRests, movedText, movedToken⟩ :=
        rests.next_of_ne_nil ended
      obtain ⟨others, dropEq, othersMunched⟩ := emission.exists_eq_cons munched
      have found : reading.token? table = some emission.token := by
        rw [Reading.token?, ← List.head?_drop, dropEq, List.head?_cons]
      have textEq : reading.text.toList = before ++ emission.word ++ emission.after := by
        rw [← text_eq, rests.text_eq, emission.text_eq]
      rw [found, Option.some_or]
      refine ⟨moved, nextEq, movedText.trans text_eq, movedToken, ?_,
        .inl ⟨_, _, movedRests, ?_⟩⟩
      · rintro token ⟨⟩
        exact ⟨emission.word, Text.slice?_eq_some_iff.mpr ⟨before, _, textEq, rfl, rfl⟩⟩
      · rw [← List.tail_drop, dropEq]
        exact othersMunched
  · have nothing : reading.token? table = none := List.getElem?_eq_none exhausted
    rw [nothing, Option.none_or]
    refine ⟨scanner, by simp [PullScanner.next, finished], text_eq, token_eq, fits,
      .inr ⟨finished, ?_⟩⟩
    exact Nat.le_succ_of_le exhausted

theorem Keeps.act (keeps : scanner.Keeps reading last) (action : Action) :
    (scanner.act action).1 = reading.answer table action ∧
      (scanner.act action).2.Keeps (reading.after action)
        ((reading.answer table action).lastToken last) := by
  obtain ⟨moved, nextEq, movedKeeps⟩ := keeps.next
  cases action with
  | bind text => exact ⟨rfl, ofText_keeps table text⟩
  | request =>
      rw [PullScanner.act, nextEq]
      exact ⟨rfl, movedKeeps⟩
  | draw =>
      rw [PullScanner.act, draw_of_next_eq_ok nextEq]
      exact ⟨rfl, movedKeeps⟩

theorem Keeps.perform (keeps : scanner.Keeps reading last) (actions : List Action) :
    (scanner.perform actions).1 = reading.answers table actions ∧
      (scanner.perform actions).2.Keeps (actions.foldl Reading.after reading)
        ((reading.answers table actions).foldl Answer.lastToken last) := by
  induction actions generalizing scanner reading last with
  | nil => exact ⟨rfl, keeps⟩
  | cons action actions ih =>
      obtain ⟨answerEq, movedKeeps⟩ := keeps.act action
      obtain ⟨answersEq, lastKeeps⟩ := ih movedKeeps
      refine ⟨?_, ?_⟩
      · rw [perform_cons, answerEq, answersEq, Reading.answers]
      · exact lastKeeps

theorem Keeps.nextReread?_eq (keeps : scanner.Keeps reading last) {count : Nat}
    (enough : scanner.text.length < count) :
    scanner.nextReread? count = some scanner.next := by
  rcases keeps.left with ⟨before, ahead, rests, _⟩ | ⟨finished, _⟩
  · apply rests.nextReread?_eq
    rw [← String.length_toList, rests.text_eq, List.length_append] at enough
    omega
  · simp [nextReread?, PullScanner.next, finished]

theorem Keeps.shows (keeps : scanner.Keeps reading last) : scanner.Shows reading.text last := by
  obtain ⟨text_eq, token_eq, fits, _⟩ := keeps
  cases last with
  | none => simp [Shows, tokenStart, tokenStop, tokenText, token_eq]
  | some token =>
      obtain ⟨word, sliced⟩ := fits token rfl
      have textEq : scanner.tokenText = String.ofList word := by
        simp [tokenText, token_eq, Token.textIn, Token.charsIn, text_eq, sliced]
      refine ⟨token_eq, ?_, ?_, ?_⟩
      · simp [tokenStart, token_eq]
      · simp [tokenStop, token_eq]
      · rw [textEq, String.toList_ofList, sliced]

/-- Whatever is done with a scanner, each request is answered by the token of
its number among the longest-match tokens of the text that was bound last, and
by none behind the last token.  No request fails, and the scanner always shows
the token that it answered last since that text was bound. -/
theorem perform_ofText (table : Table) (text : String) (actions : List Action) :
    (∀ bound tokens, table.Munched 0 bound.toList tokens ↔ tokens = tokenize table bound) ∧
    ((ofText table text).perform actions).1 = Reading.answers table ⟨text, 0⟩ actions ∧
    ((ofText table text).perform actions).2.Shows
      (actions.foldl Reading.after ⟨text, 0⟩).text
      (((ofText table text).perform actions).1.foldl Answer.lastToken none) := by
  obtain ⟨answersEq, keeps⟩ := (ofText_keeps table text).perform actions
  refine ⟨?_, answersEq, ?_⟩
  · intro bound tokens
    have munched := tokenize_munched table bound
    exact ⟨fun other => other.unique munched, fun same => same ▸ munched⟩
  · rw [answersEq]
    exact keeps.shows

/-- Whatever was done with a scanner, a request answers and leaves behind what it
would if it read the text anew at its cursor before every step. -/
theorem nextReread?_perform_ofText (table : Table) (text : String) (actions : List Action)
    {count : Nat}
    (enough : ((ofText table text).perform actions).2.text.length < count) :
    ((ofText table text).perform actions).2.nextReread? count =
      some ((ofText table text).perform actions).2.next :=
  ((ofText_keeps table text).perform actions).2.nextReread?_eq enough

end PullScanner

end MaximalMunch
