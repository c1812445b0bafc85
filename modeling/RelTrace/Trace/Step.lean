import RelTrace.Query.Expr
import RelTrace.Relation.Algebra
import RelTrace.Text.Quoted

/-!
# Steps

A step records the evaluation of one node: what was done, to which steps, and which rows came out.
A trace is the list of steps of a whole tree, each after the steps of its operands.

## Main definitions

* `Step`, `Trace`.
* `MalformedJoin`: why a tree has no trace.
-/

namespace RelTrace

/-- One evaluated node. -/
structure Step where
  operator : Operator
  description : String
  rows : Relation
  span : Span
  /-- The distance from the root of the tree. -/
  depth : Nat
  /-- The places of the operands in the trace, the left one first. -/
  inputs : List Nat

/-- The steps of a tree; the last one is the step of its root. -/
structure Trace where
  earlier : List Step
  result : Step

/-- All steps in order. -/
def Trace.steps (t : Trace) : List Step := t.earlier ++ [t.result]

/-- The condition of a join is not one attribute, an equals sign and another attribute. -/
structure MalformedJoin where
  condition : String
  span : Span
deriving DecidableEq

/-- The text of the error. -/
def MalformedJoin.message (e : MalformedJoin) : String :=
  "invalid join condition " ++ Text.quote e.condition ++
    ": expected `left_attribute=right_attribute`"

/-- What the log says of a step at its place in the trace. -/
def Step.summary (s : Step) (index : Nat) : String :=
  "step " ++ toString index ++ ": " ++ s.description ++ " -> " ++ toString s.rows.length ++ " rows"

end RelTrace
