import MaximalMunch.Text.Printable
import MaximalMunch.Text.GraphemeExtend

/-!
# Escaped and quoted text

Messages show foreign text so that every character is visible: line ends, tabs,
the null character and the backslash as two-character escapes, and whatever
cannot be printed by the number of its code point.  A combining mark is written
by number where it would otherwise join a character that is not its own.
-/

namespace MaximalMunch

namespace Text

def hexadecimal (number : Nat) : List Char :=
  Nat.toDigits 16 number

/-- Which of the optional escapes are in force. -/
structure EscapeRules where
  singleQuote : Bool
  doubleQuote : Bool
  combiningMark : Bool

def backslashed (c : Char) : List Char :=
  ['\\', c]

/-- A character written by the number of its code point. -/
def numbered (c : Char) : List Char :=
  ['\\', 'u', '\x7b'] ++ hexadecimal c.toNat ++ ['\x7d']

def escapeChar (rules : EscapeRules) (c : Char) : List Char :=
  if c = '\x00' then backslashed '0'
  else if c = '\t' then backslashed 't'
  else if c = '\r' then backslashed 'r'
  else if c = '\n' then backslashed 'n'
  else if c = '\\' then backslashed c
  else if c = '\x22' then if rules.doubleQuote then backslashed c else [c]
  else if c = '\x27' then if rules.singleQuote then backslashed c else [c]
  else if rules.combiningMark && isGraphemeExtend c then numbered c
  else if isPrintable c then [c]
  else numbered c

def quoteString (text : String) : String :=
  let inner := text.toList.flatMap (escapeChar ⟨false, true, true⟩)
  String.ofList (['\x22'] ++ inner ++ ['\x22'])

def quoteChar (c : Char) : String :=
  String.ofList (['\x27'] ++ escapeChar ⟨true, false, true⟩ c ++ ['\x27'])

/-- Text with escapes but without quotes around it.  A combining mark is
escaped only at the very beginning, where it has nothing to join. -/
def escape (text : String) : String :=
  match text.toList with
  | [] => ""
  | first :: rest =>
      String.ofList (escapeChar ⟨true, true, true⟩ first ++
        rest.flatMap (escapeChar ⟨true, true, false⟩))

end Text

end MaximalMunch
