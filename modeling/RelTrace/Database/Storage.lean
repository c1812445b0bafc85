import RelTrace.Database.FileName
import RelTrace.Database.Json
import RelTrace.Host
import RelTrace.Text.Quoted

/-!
# Loading and exporting databases

A database is loaded from the JSON text of a file, and exported to a file under its own name.

## Main definitions

* `DatabaseError`: why a database cannot be used.
* `Database.ofText`, `Database.load`, `Database.exportTo`.
-/

namespace RelTrace

/-- Why a database cannot be loaded, exported or found. -/
inductive DatabaseError where
  | unreadable (path : String) (cause : FileError)
  | unwritable (path : String) (cause : FileError)
  | refused (fault : Json.Fault)
  | blankName
  | unknown (name : String)
deriving DecidableEq

/-- The text of a fault. -/
def Json.Fault.message : Json.Fault → String
  | malformed => "the text is not JSON"
  | truncated => "the text ends too soon"
  | unfit => "the text is not that of a database"

namespace DatabaseError

/-- The text of the error. -/
def message : DatabaseError → String
  | unreadable path cause => "failed to read " ++ path ++ ": " ++ cause.message
  | unwritable path cause => "failed to write " ++ path ++ ": " ++ cause.message
  | refused fault => "invalid database JSON: " ++ fault.message
  | blankName => "invalid database format: the \"name\" field must not be empty"
  | unknown name => "unknown database: " ++ name

/-- The texts of what the error goes back to. -/
def causes : DatabaseError → List String
  | unreadable _ cause | unwritable _ cause => [cause.message]
  | refused fault => [fault.message]
  | blankName | unknown _ => []

end DatabaseError

namespace Database

/-- The database of a JSON text. Its name must not be blank. -/
def ofText (text : String) : Except DatabaseError Database :=
  match Json.decode decode text with
  | .ok d => if Text.isBlankText d.name then .error .blankName else .ok d
  | .error fault => .error (.refused fault)

/-- The JSON text that a database is exported as. -/
def toText (d : Database) : String := d.toJson.pretty

section

variable {m : Type → Type} [Monad m] [Host m]

/-- Loads a database from a file. -/
def load (path : String) : m (Except DatabaseError Database) := do
  match ← Host.readFile path with
  | .error cause => return .error (.unreadable path cause)
  | .ok text =>
    match ofText text with
    | .error e => return .error e
    | .ok d =>
      Host.takeNote ⟨.info, "loaded database " ++ Text.quote d.name ++ " with " ++
        toString d.tables.size ++ " tables from " ++ path⟩
      return .ok d

/-- Exports a database into a directory. Gives the path of the file. -/
def exportTo (directory : String) (d : Database) : m (Except DatabaseError String) := do
  let path := Folder.join directory d.fileName
  match ← Host.writeFile path d.toText with
  | .error cause => return .error (.unwritable path cause)
  | .ok () =>
    Host.takeNote ⟨.info, "exported database " ++ Text.quote d.name ++ " to " ++ path⟩
    return .ok path

end

end Database

end RelTrace
