import RelTrace.Relation.Basic
import RelTrace.Condition

/-!
# Relational operators

Projection, selection, union and join on relations as lists of rows. The order of the operands
decides the order of the result.

## Main definitions

* `Relation.project`, `Relation.select`, `Relation.union`, `Relation.join`.
-/

namespace RelTrace.Relation

/-- Keeps the listed attributes of each row. -/
def project (r : Relation) (attributes : List String) : Relation :=
  r.map fun row => Row.project row attributes

/-- Keeps the rows that satisfy a condition. -/
def select (r : Relation) (c : Condition) : Relation := r.filter c.holds

/-- The rows of both sides without repetitions. -/
def union (left right : Relation) : Relation := distinct (left ++ right)

/-- Join values agree if they are equal, or if both are missing. -/
def agree : Option Value → Option Value → Bool
  | some v, some w => v.equal w
  | none, none => true
  | _, _ => false

/-- Every pair of rows whose join values agree, merged so that the right row wins. -/
def join (left right : Relation) (leftName rightName : String) : Relation :=
  left.flatMap fun l =>
    (right.filter fun r => agree (l.find? leftName) (r.find? rightName)).map fun r => l.merge r

end RelTrace.Relation
