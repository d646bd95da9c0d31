import MaximalMunch.Text.Utf8
import MaximalMunch.Walk

/-!
# Pulling tokens from a text

The whole text is bound first, and then tokens are requested one at a time.
A scanner keeps the characters from its cursor on, so that a request reads only
what the token needs.

Two requests could fail: one whose token is empty, and one that starts inside a
character.  Both would mean that the walk makes no progress; a valid table never
lets it come to that.
-/

namespace MaximalMunch

/-- A scan that cannot go on. -/
inductive ScanError
  /-- The walk made no progress at an offset. -/
  | stalled (offset : Nat)
  deriving DecidableEq, Repr

def ScanError.message : ScanError → String
  | .stalled offset =>
      s!"scanner made no progress at offset {offset}; automaton is malformed"

/-- A scanner that is asked for the tokens of a bound text. -/
structure PullScanner (table : Table) where
  text : String
  /-- The characters from the cursor on, unless the cursor is inside one. -/
  rest : Option (List Char)
  walk : Walk
  token : Option Token
  finished : Bool

namespace PullScanner

variable {table : Table}

def ofText (table : Table) (text : String) : PullScanner table where
  text := text
  rest := some text.toList
  walk := Walk.startAt table 0
  token := none
  finished := false

def empty (table : Table) : PullScanner table :=
  ofText table ""

/-- Bind another text, at whose start the scan begins anew. -/
def bind (_ : PullScanner table) (text : String) : PullScanner table :=
  ofText table text

/-- Request a token.  The answer `none` says that the text is used up; it stays
so. -/
def next (scanner : PullScanner table) :
    Except ScanError (Option Token) × PullScanner table :=
  if scanner.finished then
    (.ok none, scanner)
  else
    match scanner.rest with
    | none =>
        (.error (.stalled scanner.walk.cursor), { scanner with finished := true })
    | some rest =>
        match scanner.walk.munch table 0 rest with
        | (none, walk, _) =>
            (.ok none, { scanner with walk := walk, finished := true })
        | (some token, walk, _) =>
            if token.isEmpty then
              (.error (.stalled token.start),
                { scanner with walk := walk, finished := true })
            else
              (.ok (some token),
                { scanner with
                  rest := Text.dropBytes? (token.stop - token.start) rest
                  walk := walk
                  token := some token })

/-- Request tokens, at most `count`, until there is none. -/
def take : Nat → PullScanner table → List Token × PullScanner table
  | 0, scanner => ([], scanner)
  | count + 1, scanner =>
      match scanner.next with
      | (.ok (some token), scanner) =>
          let (tokens, scanner) := scanner.take count
          (token :: tokens, scanner)
      | (_, scanner) => ([], scanner)

def kind? (scanner : PullScanner table) : Option KindId :=
  scanner.token.map Token.kind

def kindName (scanner : PullScanner table) : String :=
  (scanner.token.map fun token => table.kindName token.kind).getD ""

def tokenStart (scanner : PullScanner table) : Nat :=
  (scanner.token.map Token.start).getD 0

def tokenStop (scanner : PullScanner table) : Nat :=
  (scanner.token.map Token.stop).getD 0

def tokenText (scanner : PullScanner table) : String :=
  (scanner.token.map fun token => token.textIn scanner.text).getD ""

/-- Copy as much of the token's text into a buffer as fits without splitting a
character.  Answers the number of bytes copied, and the buffer. -/
def copyTokenText (scanner : PullScanner table) (buffer : List UInt8) :
    Nat × List UInt8 :=
  let fitting := Text.fitting buffer.length scanner.tokenText.toList
  let bytes := Text.utf8 (String.ofList fitting)
  (bytes.length, bytes ++ buffer.drop bytes.length)

/-- `copyTokenText` with every step checked.  The number of bytes is found on the
way down from the largest one that could fit, and both sides must have that many
bytes. -/
def copyTokenText? (scanner : PullScanner table) (buffer : List UInt8) :
    Option (Nat × List UInt8) := do
  let bytes := Text.utf8 scanner.tokenText
  let count ← Text.cutBelow? scanner.tokenText.toList (min bytes.length buffer.length)
  guard (count ≤ bytes.length ∧ count ≤ buffer.length)
  return (count, bytes.take count ++ buffer.drop count)

end PullScanner

/-- All tokens of a text.  There are no more than characters. -/
def tokenize (table : Table) (text : String) : List Token :=
  ((PullScanner.ofText table text).take (text.length + 1)).1

def tokenizeMany (table : Table) (texts : List String) : List (List Token) :=
  texts.map (tokenize table)

end MaximalMunch
