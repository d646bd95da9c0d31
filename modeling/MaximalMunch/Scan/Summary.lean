import MaximalMunch.Token
import MaximalMunch.Table.Basic

/-!
# Summaries of token lists

A long token list is shown by its length, the number of tokens of each kind
name, and its two ends.
-/

namespace MaximalMunch

structure TokenSummary where
  count : Nat
  /-- The kind names that occur, in the order of their first token, each with
  the number of its tokens. -/
  byKind : List (String × Nat)
  first : List Token
  last : List Token

namespace TokenSummary

/-- How many tokens of each end are shown. -/
abbrev endLength : Nat := 5

def tally (counts : List (String × Nat)) (name : String) : List (String × Nat) :=
  match counts with
  | [] => [(name, 1)]
  | (other, count) :: rest =>
      if other = name then (other, count + 1) :: rest
      else (other, count) :: tally rest name

def ofTokens (table : Table) (tokens : List Token) : TokenSummary where
  count := tokens.length
  byKind := tokens.foldl (fun counts token => tally counts (table.kindName token.kind)) []
  first := tokens.take endLength
  last := tokens.drop (tokens.length - endLength)

end TokenSummary

end MaximalMunch
