import MaximalMunch.Journal
import MaximalMunch.Scan.Pull
import MaximalMunch.Scan.Push
import MaximalMunch.Text.Quoted

/-!
# Journals of scans

Scanners report every token, and every character that no rule matches.  A pull
scanner can show the unrecognized text, because it has the text; a push scanner
cannot.
-/

namespace MaximalMunch

def noteToken (table : Table) (token : Token) : Journal Unit :=
  Journal.note .trace
    s!"[scan] {table.kindName token.kind} {token.start}..{token.stop}"

namespace PullScanner

variable {table : Table}

/-- Report a token that stands at the front of `text`. -/
def notePulled (table : Table) (text : List Char) (token : Token) : Journal Unit :=
  if token.isUnrecognized then
    let covered := ((Text.splitBytes? token.byteCount text).map Prod.fst).getD []
    Journal.note .debug
      s!"[scan] unrecognized input {Text.quoteString (String.ofList covered)} at {token.start}..{token.stop}"
  else
    noteToken table token

/-- `next`, which reports the token, or the first time that there is none. -/
def nextLogged (scanner : PullScanner table) :
    Journal (Except ScanError (Option Token) × PullScanner table) := do
  let (answer, next) := scanner.next
  match answer with
  | .ok (some token) => notePulled table (scanner.rest.getD []) token
  | .ok none =>
      unless scanner.finished do
        Journal.note .trace s!"[scan] finished at {scanner.walk.cursor}"
  | .error _ => pure ()
  return (answer, next)

/-- `take`, which reports each token, and an error that ends it. -/
def takeLogged : Nat → PullScanner table → Journal (List Token × PullScanner table)
  | 0, scanner => return ([], scanner)
  | count + 1, scanner => do
      match ← scanner.nextLogged with
      | (.ok (some token), scanner) =>
          let (tokens, scanner) ← scanner.takeLogged count
          return (token :: tokens, scanner)
      | (.ok none, scanner) => return ([], scanner)
      | (.error problem, scanner) =>
          Journal.note .error s!"[scan] {problem.message}"
          return ([], scanner)

end PullScanner

namespace PushScanner

variable {table : Table}

def notePushed (table : Table) (token : Token) : Journal Unit :=
  if token.isUnrecognized then
    Journal.note .debug s!"[scan] unrecognized input at {token.start}..{token.stop}"
  else
    noteToken table token

/-- Report the token of a scanner that has just completed one. -/
def noteProgress (answer : Progress × PushScanner table) : Journal Unit :=
  match answer with
  | (.done, ⟨_, some token⟩) => notePushed table token
  | _ => pure ()

/-- `add`, which reports a completed token. -/
def addLogged (scanner : PushScanner table) (c : Char) :
    Journal (Progress × PushScanner table) := do
  let answer := scanner.add c
  noteProgress answer
  return answer

def finishLogged (scanner : PushScanner table) :
    Journal (Progress × PushScanner table) := do
  let answer := scanner.finish
  noteProgress answer
  return answer

end PushScanner

/-- `tokenize` with the records of the scan. -/
def tokenizeLogged (table : Table) (text : String) : Journal (List Token) := do
  let (tokens, _) ← (PullScanner.ofText table text).takeLogged (text.length + 1)
  return tokens

def tokenizePushedLogged (table : Table) (text : String) :
    Journal (Option (List Token)) := do
  let tokens := tokenizePushed table text
  (tokens.getD []).forM (PushScanner.notePushed table)
  return tokens

end MaximalMunch
