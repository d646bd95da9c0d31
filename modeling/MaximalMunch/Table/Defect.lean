import MaximalMunch.Token

/-!
# Defects of tables

Everything that can keep a table from coming into being: parts that do not fit
together, a description that names missing states, or bytes that are no
encoded table.  Nothing here can arise while scanning.
-/

namespace MaximalMunch

/-- The sections of an encoded table, in the order in which they are stored. -/
inductive Section
  | magic
  | header
  | asciiClasses
  | classRanges
  | transitionMatrix
  | tokenMap
  | kindNames
  deriving DecidableEq, Repr

/-- The name of a section in messages. -/
def Section.label : Section → String
  | .magic => "magic"
  | .header => "header"
  | .asciiClasses => "ascii classes"
  | .classRanges => "class ranges"
  | .transitionMatrix => "transition matrix"
  | .tokenMap => "token map"
  | .kindNames => "kind names"

/-- A reason why there is no table. -/
inductive Defect
  | noStates
  | noClasses
  | tooManyClasses (classes : Nat)
  | initialOutOfRange (state stateCount : UInt32)
  | errorOutOfRange (state stateCount : UInt32)
  | errorStateAccepting (state : UInt32) (kind : KindId)
  | transitionShape (expected found : Nat)
  | tokenMapShape (expected found : Nat)
  | targetOutOfRange (state cls : Nat) (target : UInt32)
  | classOutOfRange (cls : UInt16) (classCount : UInt32)
  | badClassRange (index : Nat)
  | unknownKind (state : Nat) (kind : KindId) (kindCount : Nat)
  | duplicateKindName (name : String)
  | badKindName (index : Nat)
  | unknownState (state : UInt32)
  | emptyCharRange (lo hi : Char)
  | badMagic
  | truncated (place : Section)
  deriving DecidableEq, Repr

end MaximalMunch
