import MaximalMunch.Builder.Compile

/-!
# A demonstration grammar

Numbers, identifiers, blanks, line ends, comments and operators, described by
hand.  The programs scan with it when they are given no other table.
-/

namespace MaximalMunch

namespace DemoGrammar

def singleOperators : String := "*%^~?:;,.()[]\x7b\x7d"

/-- Operators that may be followed by a second character, each with all
characters that may follow it. -/
def doubleOperators : List (Char × String) :=
  [('+', "+="), ('-', "-=>"), ('=', "="), ('<', "=<"), ('>', "=>"), ('!', "="),
    ('&', "&"), ('|', "|")]

/-- The letters of identifiers: ASCII, the underscore, the letters of Latin-1
without the two arithmetic signs among them, and Greek. -/
def letterRanges : List (Char × Char) :=
  [('A', 'Z'), ('a', 'z'), ('_', '_'), ('À', 'Ö'), ('Ø', 'ö'), ('ø', 'ÿ'), ('Α', 'Ω'),
    ('α', 'ω')]

/-- A description under construction. -/
abbrev Sketch := StateT Builder (Except Defect)

def kind (name : String) : Sketch KindId :=
  fun builder => builder.addKind name

def state : Sketch StateId :=
  fun builder => .ok builder.addState

def accepting (kind : KindId) : Sketch StateId :=
  fun builder => .ok (builder.addAccepting kind)

def edges (source : StateId) (chars : String) (target : StateId) : Sketch Unit :=
  modify fun builder => builder.onAny source chars target

def digits (source target : StateId) : Sketch Unit :=
  modify fun builder => builder.onRange source '0' '9' target

def letters (source target : StateId) : Sketch Unit :=
  modify fun builder =>
    letterRanges.foldl (fun builder (lo, hi) => builder.onRange source lo hi target) builder

def otherwise (source target : StateId) : Sketch Unit :=
  modify fun builder => builder.otherwise source target

/-- Digits, and digits around a decimal point. -/
def numbers (integerKind floatKind : KindId) : Sketch Unit := do
  let integer ← accepting integerKind
  let point ← state
  let fraction ← accepting floatKind
  digits Builder.start integer
  digits integer integer
  edges integer "." point
  digits point fraction
  digits fraction fraction

/-- A letter, then letters and digits. -/
def identifiers (identifierKind : KindId) : Sketch Unit := do
  let identifier ← accepting identifierKind
  letters Builder.start identifier
  letters identifier identifier
  digits identifier identifier

/-- Blanks, and line ends apart from them. -/
def layout (blankKind lineEndKind : KindId) : Sketch Unit := do
  let blank ← accepting blankKind
  edges Builder.start " \t" blank
  edges blank " \t" blank
  let lineFeed ← accepting lineEndKind
  let carriageReturn ← accepting lineEndKind
  edges Builder.start "\n" lineFeed
  edges Builder.start "\r" carriageReturn
  edges carriageReturn "\n" lineFeed

/-- All that begins with a slash.  Answers the state in which an operator of
two characters ends. -/
def slashes (lineCommentKind blockCommentKind operatorKind : KindId) : Sketch StateId := do
  let slash ← accepting operatorKind
  let complete ← accepting operatorKind
  let line ← accepting lineCommentKind
  let block ← state
  let star ← state
  let closed ← accepting blockCommentKind
  edges Builder.start "/" slash
  edges slash "=" complete
  edges slash "/" line
  edges slash "*" block
  edges line "\r\n" Builder.error
  otherwise line line
  edges block "*" star
  otherwise block block
  edges star "/" closed
  edges star "*" star
  otherwise star block
  return complete

/-- All other operators, which end in the state `complete` when nothing can
follow. -/
def operators (operatorKind : KindId) (complete : StateId) : Sketch Unit := do
  edges Builder.start singleOperators complete
  doubleOperators.forM fun (first, seconds) => do
    let opened ← accepting operatorKind
    edges Builder.start (String.singleton first) opened
    edges opened seconds complete

def sketch : Sketch Unit := do
  let integerKind ← kind "INTEGER"
  let floatKind ← kind "FLOAT"
  let identifierKind ← kind "IDENTIFIER"
  let blankKind ← kind "WHITESPACE"
  let lineEndKind ← kind "NEWLINE"
  let lineCommentKind ← kind "LINE_COMMENT"
  let blockCommentKind ← kind "BLOCK_COMMENT"
  let operatorKind ← kind "OPERATOR"
  numbers integerKind floatKind
  identifiers identifierKind
  layout blankKind lineEndKind
  let complete ← slashes lineCommentKind blockCommentKind operatorKind
  operators operatorKind complete

def builder : Except Defect Builder :=
  (sketch.run Builder.empty).map Prod.snd

def table : Except Defect Table :=
  builder.bind Builder.build

end DemoGrammar

end MaximalMunch
