import RelTrace.Query.Span

/-!
# Expressions

The tree of a query. Each node knows the characters that it was read from.

## Main definitions

* `Expr`: base relations, projections, selections, unions and joins.
* `Operator`: the kind of a node.
* `Expr.preorder`: the nodes of a tree with their depths.
-/

namespace RelTrace

/-- The kinds of nodes. -/
inductive Operator where
  | relation
  | projection
  | selection
  | union
  | join
deriving DecidableEq

/-- The name of a kind of node. -/
def Operator.name : Operator → String
  | relation => "RELATION"
  | projection => "PROJECTION"
  | selection => "SELECTION"
  | union => "UNION"
  | join => "JOIN"

/-- A query as a tree. Conditions are kept as texts. -/
inductive Expr where
  | relation (name : String) (span : Span)
  | project (attributes : List String) (operand : Expr) (span : Span)
  | select (condition : String) (operand : Expr) (span : Span)
  | union (left right : Expr) (span : Span)
  | join (condition : String) (left right : Expr) (span : Span)
deriving DecidableEq

namespace Expr

/-- The characters that the node was read from. -/
def span : Expr → Span
  | relation _ s | project _ _ s | select _ _ s | union _ _ s | join _ _ _ s => s

/-- The kind of the node. -/
def operator : Expr → Operator
  | relation _ _ => .relation
  | project _ _ _ => .projection
  | select _ _ _ => .selection
  | union _ _ _ => .union
  | join _ _ _ _ => .join

/-- The number of nodes of the tree. -/
def nodeCount : Expr → Nat
  | relation _ _ => 1
  | project _ e _ | select _ e _ => 1 + e.nodeCount
  | union l r _ | join _ l r _ => 1 + l.nodeCount + r.nodeCount

/-- The nodes of a tree whose root has the given depth, each before its operands. -/
def preorder (depth : Nat) : Expr → List (Nat × Expr)
  | relation name s => [(depth, relation name s)]
  | project attributes e s => (depth, project attributes e s) :: e.preorder (depth + 1)
  | select condition e s => (depth, select condition e s) :: e.preorder (depth + 1)
  | union l r s => (depth, union l r s) :: (l.preorder (depth + 1) ++ r.preorder (depth + 1))
  | join condition l r s =>
    (depth, join condition l r s) :: (l.preorder (depth + 1) ++ r.preorder (depth + 1))

/-- The union of two trees, from the start of the left one to the end of the right one. -/
def unite (left right : Expr) : Expr := union left right ⟨left.span.start, right.span.stop⟩

/-- The join of two trees, from the start of the left one to the end of the right one. -/
def joinOn (condition : String) (left right : Expr) : Expr :=
  join condition left right ⟨left.span.start, right.span.stop⟩

end Expr

end RelTrace
