import RelTrace.Row

/-!
# Relations

A relation is a list of rows. It has no schema: rows of one relation may have different attributes.

## Main definitions

* `Relation.attributes`: the names that occur, in order of first appearance.
* `Relation.distinct`: the first row of each identity.
-/

namespace RelTrace

/-- Rows in order. -/
abbrev Relation := List Row

/-- The first entry of each key. -/
def firsts {κ α : Type} [DecidableEq κ] : List (κ × α) → List (κ × α)
  | [] => []
  | e :: rest => e :: (firsts rest).filter fun f => f.1 ≠ e.1

namespace Relation

/-- Relations are equal if they have equal rows in the same order. -/
def equal : Relation → Relation → Bool
  | [], [] => true
  | r :: rs, s :: ss => Row.equal r s && equal rs ss
  | _, _ => false

/-- Every attribute name that occurs in a row, in order of first appearance. -/
def attributes (r : Relation) : List String := (r.flatMap Keyed.names).eraseDups

/-- The rows without those that repeat an earlier one. -/
def distinct (r : Relation) : Relation :=
  (firsts (r.map fun row => (Row.key row, row))).map Prod.snd

end Relation

end RelTrace
