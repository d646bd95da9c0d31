import MaximalMunch.Json.Lexeme
import MaximalMunch.Json.Value

/-!
# Reading JSON documents

Values are put together from lexemes with an explicit stack of the arrays and
objects that are still open, so a document may be nested to any depth.
-/

namespace MaximalMunch

namespace Json

/-- An array or object of which a part has been read. -/
inductive Frame
  /-- An array, with the elements read so far, the newest first. -/
  | array (items : List Json)
  /-- An object, with the members read so far, the newest first, and the key
  whose value comes next.  A key that is no text spoils the object. -/
  | object (members : Option (List (String × Json))) (key : Option String)

/-- What the document must go on with. -/
inductive Expectation
  /-- A value; or, in an array without elements, its end. -/
  | value
  /-- The end of the innermost array or object, or a comma, behind a complete
  value. -/
  | continuation (value : Json)
  /-- A key behind some members; or, without members, the end of the object. -/
  | key (members : Option (List (String × Json)))
  | colon (members : Option (List (String × Json))) (key : Option String)

def addMember (members : Option (List (String × Json))) (key : Option String)
    (value : Json) : Option (List (String × Json)) :=
  members.bind fun members => key.map fun key => (key, value) :: members

def closeMembers : Option (List (String × Json)) → Json
  | some members => .object members.reverse
  | none => .other

/-- The value of a lexeme that is a value by itself. -/
def scalar? : Lexeme → Option Json
  | .null => some .null
  | .natural value => some (.natural value)
  | .text (some value) => some (.text value)
  | .text none => some .other
  | .other => some .other
  | _ => none

/-- Read a value from lexemes. -/
def assemble? : List Frame → Expectation → List Lexeme → Option Json
  | [], .continuation value, [] => some value
  | _, _, [] => none
  | stack, .value, lexeme :: rest =>
      match lexeme, stack with
      | .openArray, _ => assemble? (.array [] :: stack) .value rest
      | .openObject, _ => assemble? stack (.key (some [])) rest
      | .closeArray, .array [] :: outer => assemble? outer (.continuation (.array [])) rest
      | _, _ =>
          match scalar? lexeme with
          | some value => assemble? stack (.continuation value) rest
          | none => none
  | .array items :: outer, .continuation value, lexeme :: rest =>
      match lexeme with
      | .comma => assemble? (.array (value :: items) :: outer) .value rest
      | .closeArray =>
          assemble? outer (.continuation (.array (value :: items).reverse)) rest
      | _ => none
  | .object members key :: outer, .continuation value, lexeme :: rest =>
      match lexeme with
      | .comma => assemble? outer (.key (addMember members key value)) rest
      | .closeObject =>
          assemble? outer (.continuation (closeMembers (addMember members key value))) rest
      | _ => none
  | [], .continuation _, _ :: _ => none
  | stack, .key members, lexeme :: rest =>
      match lexeme, members with
      | .text key, _ => assemble? stack (.colon members key) rest
      | .closeObject, some [] => assemble? stack (.continuation (.object [])) rest
      | _, _ => none
  | stack, .colon members key, lexeme :: rest =>
      match lexeme with
      | .colon => assemble? (.object members key :: stack) .value rest
      | _ => none

def parse? (bytes : List UInt8) : Option Json :=
  (lexemes? bytes).bind (assemble? [] .value)

end Json

end MaximalMunch
