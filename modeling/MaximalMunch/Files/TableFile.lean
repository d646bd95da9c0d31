import MaximalMunch.Files.Host
import MaximalMunch.Format.Binary
import MaximalMunch.Format.JsonForm
import MaximalMunch.Table.Message

/-!
# Table files

A table file whose name ends in `.bin` is in the binary form, and any other in
the JSON form, which is written without blanks.
-/

namespace MaximalMunch

/-- A reason why a table cannot be loaded or saved. -/
inductive TableFileError
  | file (problem : FileError)
  /-- The file is not JSON, or not of the form of a table. -/
  | malformed
  | defective (defect : Defect)
  deriving DecidableEq, Repr

def TableFileError.message : TableFileError → String
  | .file problem => problem.message
  | .malformed => "table JSON: not a table"
  | .defective defect => defect.message

/-- `Binary.decode`, which reports bytes that it ignores. -/
def Binary.decodeLogged (bytes : List UInt8) : Journal (Except Defect Table) := do
  match Binary.readParts bytes with
  | .error defect => return .error defect
  | .ok (parts, rest) =>
      unless rest.isEmpty do
        Journal.note .warn s!"[tables] ignoring {rest.length} trailing bytes in binary table"
      Table.ofPartsLogged parts

/-- `JsonForm.decode` with the records of the table. -/
def JsonForm.decodeLogged (bytes : List UInt8) :
    Journal (Except JsonForm.DecodeError Table) := do
  match JsonForm.readParts? bytes with
  | none => return .error .malformed
  | some parts => return (← Table.ofPartsLogged parts).mapError .defective

namespace TableFile

variable {m : Type → Type} [Monad m] [Host m]

/-- Whether a path names a file in the binary form. -/
def isBinary (path : String) : Bool :=
  Path.extension? path == some "bin"

def encode (path : String) (table : Table) : List UInt8 :=
  if isBinary path then Binary.encode table
  else JsonForm.encode Json.Layout.compact table

def decode (path : String) (content : List UInt8) :
    Journal (Except TableFileError Table) := do
  if isBinary path then
    return (← Binary.decodeLogged content).mapError .defective
  else
    return (← JsonForm.decodeLogged content).mapError fun
      | .malformed => .malformed
      | .defective defect => .defective defect

def load (path : String) : m (Except TableFileError Table) := do
  match ← Host.readFile path with
  | .error problem => return .error (.file problem)
  | .ok content =>
      Host.note ⟨.debug, s!"[tables] loading {path} ({content.length} bytes)"⟩
      Host.runJournal (decode path content)

def save (path : String) (table : Table) : m (Except TableFileError Unit) := do
  match ← Host.writeFile path (encode path table) with
  | .error problem => return .error (.file problem)
  | .ok () =>
      let form := if isBinary path then "binary" else "JSON"
      Host.note ⟨.debug, s!"[tables] wrote {form} table to {path}"⟩
      return .ok ()

end TableFile

end MaximalMunch
