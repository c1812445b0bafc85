import RelTrace.Database.Basic

/-!
# Schemas

The schema of a database as a Mermaid entity diagram. Without a diagram of its own, a table is
described by its first row, and an empty table not at all.

## Main definitions

* `deriveSchema`: the diagram of some tables.
* `Database.schema`: the diagram of a database.
-/

namespace RelTrace

/-- The type of a value in a diagram. -/
def Value.typeName : Value → String
  | bool _ => "boolean"
  | number _ => "int"
  | text _ => "string"

/-- What the name of an attribute says about keys. -/
def keyMark (name : String) : String :=
  if name = "id" then " PK" else if "_id".toList.isSuffixOf name.toList then " FK" else ""

/-- The line of an attribute. -/
def attributeLine (name : String) (v : Value) : String :=
  "        " ++ v.typeName ++ " " ++ name ++ keyMark name ++ "\n"

/-- The block of a table, unless it is empty. -/
def tableBlock (name : String) : Relation → String
  | [] => ""
  | row :: _ =>
    "    " ++ name ++ " \x7b\n" ++
      String.join (row.entries.map fun (column, v) => attributeLine column v) ++ "    \x7d\n"

/-- The diagram of some tables. -/
def deriveSchema (tables : Keyed Relation) : String :=
  "erDiagram\n" ++ String.join (tables.entries.map fun (name, rows) => tableBlock name rows)

/-- The diagram of a database: its own, or else the derived one. -/
def Database.schema (d : Database) : String := d.diagram?.getD (deriveSchema d.tables)

end RelTrace
