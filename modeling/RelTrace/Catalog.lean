import RelTrace.Database.Sample
import RelTrace.Database.Storage

/-!
# Catalogs

A catalog holds the loaded databases in the order in which they came, one of which is current. It
starts with the sample database.

## Main definitions

* `Catalog`: the databases before the current one, the current one, and those after it.
* `Catalog.add`, `Catalog.switchTo`.
-/

namespace RelTrace

/-- Databases in order with a current one among them. -/
structure Catalog where
  before : List Database
  current : Database
  after : List Database

namespace Catalog

/-- Only the sample database. -/
def initial : Catalog := ⟨[], Database.sample, []⟩

/-- All databases in order. -/
def databases (c : Catalog) : List Database := c.before ++ c.current :: c.after

/-- Adds a database at the end and makes it current. -/
def add (c : Catalog) (d : Database) : Catalog := ⟨c.databases, d, []⟩

/-- Makes the first database with a name current. -/
def switchTo (c : Catalog) (name : String) : Except DatabaseError Catalog :=
  match c.databases.span fun d => d.name ≠ name with
  | (before, d :: after) => .ok ⟨before, d, after⟩
  | (_, []) => .error (.unknown name)

end Catalog

end RelTrace
