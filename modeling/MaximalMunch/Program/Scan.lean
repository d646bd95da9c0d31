import MaximalMunch.Files.TableFile
import MaximalMunch.Program.Outcome
import MaximalMunch.Scan.Journal

/-!
# The scanning program

Prints the tokens of a text, one to a line.  The text is the first argument; a
single dash stands for standard input, and without an argument a short sample is
scanned.  Environment variables name a table file, choose the protocol, and hide
blanks and comments.
-/

namespace MaximalMunch

namespace Program.Scan

/-- What is scanned when nothing is given: numbers, identifiers, comments and
operators. -/
def sample : String :=
  "67432 2323.3  bla  ++ mo\nx = 12.5e /* cmt */ -> y // done\n"

/-- The line of a token with the given text. -/
def tokenLine (table : Table) (token : Token) (text : String) : String :=
  s!"TOK: typ={table.kindName token.kind} {token.start}-{token.stop}: [{Text.escape text}]"

/-- Whether a token is shown: all of them are, or all but blanks and comments. -/
def isShown (table : Table) (skipTrivia : Bool) (token : Token) : Bool :=
  token.isUnrecognized || !(skipTrivia && isTriviaName (table.kindName token.kind))

def tokenLines (table : Table) (skipTrivia : Bool) (text : String) (tokens : List Token) :
    List String :=
  ((Token.withTexts tokens text.toList).filter fun entry =>
      isShown table skipTrivia entry.1).map
    fun (token, covered) => tokenLine table token covered

variable {m : Type → Type} [Monad m] [MonadExceptOf Failure m] [Host m]

def chooseTable : m Table := do
  match ← Host.setting? "SCAN_TABLE" with
  | some path =>
      orFail s!"loading {path}" TableFileError.message (← TableFile.load path)
  | none =>
      orFail "building demo grammar" Defect.message
        (← Host.runJournal DemoGrammar.tableLogged)

def chooseText (arguments : List String) : m String := do
  match arguments with
  | [] => return sample
  | "-" :: _ =>
      match Text.ofUtf8? (← Host.readInput (m := m)) with
      | some text => return text
      | none => throw (Failure.mk "reading stdin" (some notText))
  | text :: _ => return text

/-- The tokens of a text by the protocol of the given name. -/
def chooseTokens (mode : String) (table : Table) (text : String) :
    m (List Token) :=
  if mode = "buffer" then
    return tokenize table text
  else if mode = "incremental" then
    return (tokenizePushed table text).getD []
  else
    throw (Failure.mk s!"unknown SCAN_MODE {Text.quoteString mode} (expected buffer or incremental)" none)

def execute (arguments : List String) : m Unit := do
  let table ← chooseTable
  let text ← chooseText arguments
  let mode := (← Host.setting? "SCAN_MODE").getD "buffer"
  let tokens ← chooseTokens mode table text
  let skipTrivia := (← Host.setting? "SCAN_SKIP_TRIVIA") == some "1"
  let lines := tokenLines table skipTrivia text tokens
  let unrecognized := (tokens.filter Token.isUnrecognized).length
  Host.printLine s!"Scanning {text.utf8ByteSize} bytes ({mode} mode)"
  lines.forM fun line => Host.printLine line
  Host.printLine s!"{tokens.length} tokens, {unrecognized} unrecognized"

end Program.Scan

end MaximalMunch
