/-!
# JSON values

The values that a table file is made of.  All other well-formed values are
told apart from those, and not from one another: a file may contain them where
nobody looks.
-/

namespace MaximalMunch

inductive Json
  | null
  /-- A number written with decimal digits only, and not with very many. -/
  | natural (value : Nat)
  | text (value : String)
  | array (items : List Json)
  | object (members : List (String × Json))
  /-- A truth value, any other number, a string that is no Unicode text, or an
  object with such a string for a key. -/
  | other

namespace Json

def items? : Json → Option (List Json)
  | .array items => some items
  | _ => none

def text? : Json → Option String
  | .text value => some value
  | _ => none

def below? (bound : Nat) : Json → Option Nat
  | .natural value => if value < bound then some value else none
  | _ => none

def word16? (value : Json) : Option UInt16 :=
  (value.below? UInt16.size).map UInt16.ofNat

def word32? (value : Json) : Option UInt32 :=
  (value.below? UInt32.size).map UInt32.ofNat

/-- The elements of an array, each read by `read`. -/
def listOf? {α : Type} (read : Json → Option α) (value : Json) : Option (List α) :=
  value.items?.bind fun items => items.mapM read

/-- The value of the only member with a given key. -/
def member? (members : List (String × Json)) (key : String) : Option Json :=
  match members.filter fun member => member.1 == key with
  | [(_, value)] => some value
  | _ => none

/-- The value of the only member with a given key, or a default when there is
none. -/
def memberOr? (default : Json) (members : List (String × Json)) (key : String) :
    Option Json :=
  match members.filter fun member => member.1 == key with
  | [] => some default
  | [(_, value)] => some value
  | _ => none

end Json

end MaximalMunch
