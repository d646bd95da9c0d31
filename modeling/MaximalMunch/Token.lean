import MaximalMunch.Text.Offset

/-!
# Tokens

A token is a classified span of the scanned text, given by two byte offsets.
Kinds are numbers into the list of kind names of a table; one number near the
top of the range is reserved for a character that no rule matches, and the
number above it marks "no kind at all" wherever kinds are stored.
-/

namespace MaximalMunch

abbrev StateId := UInt32

abbrev KindId := UInt32

namespace KindId

/-- The kind of a character that no rule matches. -/
def unrecognized : KindId := 0xFFFFFFFE

/-- The stored mark of a state that accepts nothing. -/
def absent : KindId := 0xFFFFFFFF

/-- The name of `unrecognized`, which no table may use for a kind of its own. -/
def unrecognizedName : String := "ERROR"

end KindId

/-- A classified span of text, from byte offset `start` up to, and not
including, byte offset `stop`. -/
structure Token where
  start : Nat
  stop : Nat
  kind : KindId
  deriving DecidableEq, Repr

namespace Token

/-- Number of bytes covered, when the span is not reversed. -/
def length? (token : Token) : Option Nat :=
  if token.start ≤ token.stop then some (token.stop - token.start) else none

def isEmpty (token : Token) : Bool :=
  token.stop == token.start

def isUnrecognized (token : Token) : Bool :=
  token.kind == KindId.unrecognized

/-- The characters of `text` that the token covers; none at all when the span
does not fit the text. -/
def charsIn (token : Token) (text : List Char) : List Char :=
  (Text.slice? token.start token.stop text).getD []

/-- The part of `text` that the token covers; empty when the span does not fit
the text. -/
def textIn (token : Token) (text : String) : String :=
  String.ofList (token.charsIn text.toList)

/-- The number of bytes covered, and `0` when the span is reversed. -/
def byteCount (token : Token) : Nat :=
  token.stop - token.start

/-- Tokens that tile a text, each with the part of the text it covers. -/
def withTexts : List Token → List Char → List (Token × String)
  | [], _ => []
  | token :: tokens, text =>
      let (covered, rest) := (Text.splitBytes? token.byteCount text).getD ([], text)
      (token, String.ofList covered) :: withTexts tokens rest

/-- The token moved `distance` bytes to the right. -/
def shift (token : Token) (distance : Nat) : Token :=
  { token with
    start := token.start + distance
    stop := token.stop + distance }

/-- Short form of a token: its kind, then its half-open span. -/
def describe (token : Token) : String :=
  s!"{token.kind.toNat}[{token.start},{token.stop})"

end Token

/-- Names of the kinds that hold only layout and comments. -/
def triviaNames : List String :=
  ["WHITESPACE", "NEWLINE", "LINE_COMMENT", "BLOCK_COMMENT"]

/-- Whether a kind name stands for layout or a comment. -/
def isTriviaName (name : String) : Bool :=
  triviaNames.contains name

end MaximalMunch
