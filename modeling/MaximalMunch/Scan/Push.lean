import MaximalMunch.Walk

/-!
# Pushing characters into a scanner

The caller feeds one character at a time.  A boundary is known only once a
character has been seen that cannot extend the token, so a token is reported
one character late.  At that point the walk has gone back to the cursor, and
the caller must go on feeding from there: the scanner keeps no text.

`tokenizePushed` is such a caller.
-/

namespace MaximalMunch

/-- What feeding a character, or the end of the text, has led to. -/
inductive Progress
  | more
  /-- A token was completed; the scanner holds it. -/
  | done
  deriving DecidableEq, Repr

/-- A scanner that is fed the characters of a text. -/
structure PushScanner (table : Table) where
  walk : Walk
  token : Option Token

namespace PushScanner

variable {table : Table}

def fresh (table : Table) : PushScanner table where
  walk := Walk.startAt table 0
  token := none

def add (scanner : PushScanner table) (c : Char) : Progress × PushScanner table :=
  match scanner.walk.step table c with
  | (.consumed, walk) => (.more, { scanner with walk := walk })
  | (.boundary token, walk) => (.done, ⟨walk, some token⟩)

/-- Signal the end of the text.  While a token is completed, the characters
behind it have to be fed again, and the end signalled again. -/
def finish (scanner : PushScanner table) : Progress × PushScanner table :=
  match scanner.walk.finish table with
  | (none, walk) => (.more, { scanner with walk := walk })
  | (some token, walk) => (.done, ⟨walk, some token⟩)

/-- Where the caller must go on feeding. -/
def cursor (scanner : PushScanner table) : Nat :=
  scanner.walk.cursor

def kind? (scanner : PushScanner table) : Option KindId :=
  scanner.token.map Token.kind

def kindName (scanner : PushScanner table) : String :=
  (scanner.token.map fun token => table.kindName token.kind).getD ""

def tokenStart (scanner : PushScanner table) : Nat :=
  (scanner.token.map Token.start).getD 0

def tokenStop (scanner : PushScanner table) : Nat :=
  (scanner.token.map Token.stop).getD 0

/-- Feed characters until one completes a token; signal the end when there is
none left. -/
def feed (scanner : PushScanner table) : List Char → Progress × PushScanner table
  | [] => scanner.finish
  | c :: rest =>
      match scanner.add c with
      | (.done, next) => (.done, next)
      | (.more, next) => next.feed rest

/-- The tokens of `rest`, which is what the text holds from the cursor on.
There is no answer when the cursor falls inside a character, or when more than
`count` tokens are completed. -/
def collect? : Nat → PushScanner table → List Char → Option (List Token)
  | 0, _, _ => none
  | count + 1, scanner, rest =>
      match scanner.feed rest with
      | (.more, _) => some []
      | (.done, next) =>
          (Text.dropBytes? (next.cursor - scanner.cursor) rest).bind fun rest =>
            (collect? count next rest).map (next.token.toList ++ ·)

end PushScanner

/-- All tokens of a text, gathered by feeding its characters one at a time. -/
def tokenizePushed (table : Table) (text : String) : Option (List Token) :=
  (PushScanner.fresh table).collect? (text.length + 1) text.toList

end MaximalMunch
