import RelTrace.Relation.Basic

/-!
# Databases

A database is a named collection of relations, with example queries and perhaps a description and a
diagram of its schema.

## Main definitions

* `Database`, `Database.equal`.
-/

namespace RelTrace

/-- A named collection of relations. -/
structure Database where
  name : String
  description? : Option String
  tables : Keyed Relation
  examples : List String
  /-- A diagram drawn by hand; without one it is derived from the tables. -/
  diagram? : Option String

/-- Equality of databases; the order of the tables and of the attributes in a row does not count. -/
def Database.equal (d e : Database) : Bool :=
  d.name == e.name && d.description? == e.description? &&
    Keyed.equal Relation.equal d.tables e.tables && d.examples == e.examples &&
    d.diagram? == e.diagram?

end RelTrace
