/-!
# Path names

The parts of a path name, without looking at any file.  A path name consists of
components with slashes between them.  An empty component means nothing, and
neither does a single dot, except at the very beginning of a relative path.
-/

namespace MaximalMunch

namespace Path

def isAbsolute (path : String) : Bool :=
  path.toList.head? == some '/'

def splitSlash : List Char → List (List Char)
  | [] => [[]]
  | c :: rest =>
      if c = '/' then
        [] :: splitSlash rest
      else
        match splitSlash rest with
        | [] => [[c]]
        | first :: others => (c :: first) :: others

/-- Everything between slashes, without the slash that makes a path absolute. -/
def pieces (path : String) : List (List Char) :=
  splitSlash (if isAbsolute path then path.toList.drop 1 else path.toList)

/-- Whether a piece at a given position is a component. -/
def isComponent (absolute : Bool) (piece : List Char) (position : Nat) : Bool :=
  !piece.isEmpty && (piece != ['.'] || (!absolute && position == 0))

/-- The pieces up to, and not including, the last component, and that
component. -/
def splitLast? (path : String) : Option (List (List Char × Nat) × List Char) :=
  let numbered := (pieces path).zipIdx
  let significant := fun (entry : List Char × Nat) =>
    isComponent (isAbsolute path) entry.1 entry.2
  match numbered.reverse.dropWhile fun entry => !significant entry with
  | [] => none
  | last :: before =>
      some ((before.dropWhile fun entry => !significant entry).reverse, last.1)

def parent? (path : String) : Option String :=
  (splitLast? path).map fun (before, _) =>
    let body := List.intercalate ['/'] (before.map Prod.fst)
    String.ofList (if isAbsolute path then '/' :: body else body)

/-- The last component, unless it is one or two dots. -/
def fileName? (path : String) : Option (List Char) :=
  (splitLast? path).bind fun (_, last) =>
    if last = ['.'] ∨ last = ['.', '.'] then none else some last

/-- What follows the last dot of the file name.  A dot at the very beginning
does not count. -/
def extension? (path : String) : Option String :=
  (fileName? path).bind fun name =>
    let reversed := name.reverse
    let after := reversed.takeWhile (· != '.')
    match reversed.drop after.length with
    | [] => none
    | [_] => none
    | _ => some (String.ofList after.reverse)

end Path

end MaximalMunch
