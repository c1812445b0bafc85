import RelTrace.Query.Expr

/-!
# Canonical text and outline

The canonical text of a tree is a query for it, with the parentheses that its shape needs and no
others around the operands of unions and joins. The outline shows one node on each line, indented by
its depth.

## Main definitions

* `Expr.canonical`: the canonical text.
* `Expr.outline`: the outline.
-/

namespace RelTrace.Expr

/-- The text between parentheses, if they are wanted. -/
def parenthesize (wanted : Bool) (s : String) : String := if wanted then "(" ++ s ++ ")" else s

/-- A union on the left of a union or a join takes parentheses. -/
def wrapsOnLeft : Expr → Bool
  | union _ _ _ => true
  | _ => false

/-- A union or a join on the right of a join takes parentheses. -/
def wrapsOnRight : Expr → Bool
  | union _ _ _ | join _ _ _ _ => true
  | _ => false

/-- The text of a query for the tree. -/
def canonical : Expr → String
  | relation name _ => name
  | project attributes e _ => "π[" ++ ", ".intercalate attributes ++ "](" ++ e.canonical ++ ")"
  | select condition e _ => "σ[" ++ condition ++ "](" ++ e.canonical ++ ")"
  | union l r _ => parenthesize l.wrapsOnLeft l.canonical ++ " ∪ " ++ r.canonical
  | join condition l r _ =>
    parenthesize l.wrapsOnLeft l.canonical ++ " ⋈_\x7b" ++ condition ++ "\x7d " ++
      parenthesize r.wrapsOnRight r.canonical

/-- What the outline shows of a node. -/
def heading : Expr → String
  | relation name _ => name
  | project attributes _ _ => "π [" ++ ", ".intercalate attributes ++ "]"
  | select condition _ _ => "σ " ++ condition
  | union _ _ _ => "∪"
  | join condition _ _ _ => "⋈ " ++ condition

/-- A line of the outline: two spaces for each level of depth, then the node. -/
def outlineLine (depth : Nat) (e : Expr) : String :=
  String.ofList (List.replicate (2 * depth) ' ') ++ e.heading ++ "\n"

/-- One line for each node, in preorder. -/
def outline (e : Expr) : String :=
  String.join ((e.preorder 0).map fun (depth, node) => outlineLine depth node)

end RelTrace.Expr
