import MaximalMunch.Program.Outcome
import MaximalMunch.Random.SampleText
import MaximalMunch.Scan.Pull
import MaximalMunch.Scan.Push
import MaximalMunch.Table.Message

/-!
# The fuzzing program

Scans random texts by both protocols and checks that they agree, that the tokens
tile the text, and that unrecognized tokens cover one character each.  It can also
replay a text from a file.
-/

namespace MaximalMunch

namespace Program.Fuzz

/-- Whether tokens tile the text from `offset` on, none of them is empty, and
unrecognized ones cover exactly one character. -/
def tiles (offset : Nat) : List Token → List Char → Bool
  | [], text => text.isEmpty
  | token :: tokens, text =>
      if token.start = offset ∧ token.start < token.stop then
        match Text.splitBytes? (token.stop - token.start) text with
        | none => false
        | some (covered, rest) =>
            (!token.isUnrecognized || covered.length == 1) && tiles token.stop tokens rest
      else
        false

/-- Whether both protocols give the same tokens, and these are sound. -/
def agrees (table : Table) (text : String) : Bool :=
  let pulled := tokenize table text
  tokenizePushed table text == some pulled && tiles 0 pulled text.toList

/-- Read a decimal number below `bound`; a plus sign may come first. -/
def parseNumber? (bound : Nat) (text : String) : Option Nat :=
  let digits := match text.toList with
    | '+' :: digits => digits
    | digits => digits
  if digits.isEmpty ∨ digits.any (fun c => !c.isDigit) then
    none
  else
    let value := Nat.ofDigitChars 10 digits 0
    if value < bound then some value else none

/-- How many of `count` random texts the protocols disagree on. -/
def countFailures (table : Table) (length : Nat) : Nat → SplitMix → Nat → Nat
  | 0, _, failures => failures
  | count + 1, source, failures =>
      let (text, source) := SampleText.generate length source
      countFailures table length count source
        (if agrees table text then failures else failures + 1)

variable {m : Type → Type} [Monad m] [MonadExceptOf Failure m] [Host m]

def numberVariable (name : String) (default : Nat) : m Nat := do
  return ((← Host.setting? name).bind (parseNumber? UInt64.size)).getD default

def replay (table : Table) (path : String) : m Unit := do
  let content ← orFail s!"reading {path}" FileError.message
    (← Host.readFile path)
  match Text.ofUtf8? content with
  | none => throw (Failure.mk s!"reading {path}" (some notText))
  | some text =>
      Host.printLine s!"[fuzz] replaying {path} ({content.length} bytes)"
      unless agrees table text do
        throw (Failure.mk s!"replay {path} failed" none)
      Host.printLine "[fuzz] replay ok"

def search (table : Table) : m Unit := do
  let length ← numberVariable "FUZZ_LEN" 4096
  let count ← numberVariable "FUZZ_ITERS" 200
  let seed ← numberVariable "FUZZ_SEED" 0x5EED
  Host.printLine s!"[fuzz] seed={seed} len={length} iters={count}"
  unless count = 0 ∨ SampleText.fits length do
    throw (Failure.mk "capacity overflow" none)
  let failures := countFailures table length count ⟨UInt64.ofNat seed⟩ 0
  Host.printLine s!"[fuzz] {count} iterations, {failures} failures"
  unless failures = 0 do
    throw (Failure.mk s!"{failures} fuzz iterations failed" none)

def execute : m Unit := do
  let table ← orFail "building demo grammar" Defect.message
    (← Host.runJournal DemoGrammar.tableLogged)
  match ← Host.setting? "FUZZ_INPUT" with
  | some path => replay table path
  | none => search table

end Program.Fuzz

end MaximalMunch
