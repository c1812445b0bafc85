import RelTrace.Query.Compile
import RelTrace.Trace.Step

/-!
# Evaluation

A tree is evaluated node by node, operands before operators and left before right, and every node
leaves a step. A name without a relation stands for the empty relation. The first join whose
condition is malformed ends the evaluation, after both its operands.

## Main definitions

* `Expr.evaluate`: the trace of a tree.
* `run`: the trace of a query.
-/

namespace RelTrace

/-- The relations that names stand for. -/
abbrev Lookup := String → Option Relation

/-- The two attributes of a join condition: the trimmed sides of its only equals sign. -/
def joinAttributes? (condition : String) : Option (String × String) :=
  (Text.soleCut? ['='] condition.toList).map fun (left, right) =>
    (String.ofList (Text.strip Text.isBlank left), String.ofList (Text.strip Text.isBlank right))

/-- An evaluation with its notes; it ends early at a malformed join. -/
abbrev Evaluation := ExceptT MalformedJoin Logged

namespace Evaluation

/-- The rows of a named relation. -/
def lookUp (db : Lookup) (name : String) : Evaluation Relation :=
  match db name with
  | some rows => pure rows
  | none => do
    Logged.note .warn ("unknown relation " ++ Text.quote name ++ ", using an empty relation")
    pure []

/-- The attributes of a join condition. -/
def readJoin (condition : String) (span : Span) : Evaluation (String × String) :=
  match joinAttributes? condition with
  | some names => pure names
  | none => throw ⟨condition, span⟩

/-- Ends the evaluation of a node with its step. -/
def record (earlier : List Step) (index : Nat) (s : Step) : Evaluation Trace := do
  Logged.note .debug (s.summary index)
  pure ⟨earlier, s⟩

end Evaluation

open Evaluation

/-- Evaluates a subtree whose root has the given depth and whose first step has the given place in
the whole trace. -/
def Expr.evaluateAt (db : Lookup) (depth index : Nat) : Expr → Evaluation Trace
  | .relation name span => do
    let rows ← lookUp db name
    record [] index ⟨.relation, "Access base relation: " ++ name, rows, span, depth, []⟩
  | .project attributes e span => do
    let input ← e.evaluateAt db (depth + 1) index
    let i := index + input.earlier.length
    let rows := input.result.rows.project attributes
    let description := "Project attributes: [" ++ ", ".intercalate attributes ++ "]"
    record input.steps (i + 1) ⟨.projection, description, rows, span, depth, [i]⟩
  | .select condition e span => do
    let input ← e.evaluateAt db (depth + 1) index
    let i := index + input.earlier.length
    let rows := input.result.rows.select (← Condition.readLogged condition)
    let description := "Filter rows where: " ++ condition
    record input.steps (i + 1) ⟨.selection, description, rows, span, depth, [i]⟩
  | .union l r span => do
    let left ← l.evaluateAt db (depth + 1) index
    let i := index + left.earlier.length
    let right ← r.evaluateAt db (depth + 1) (i + 1)
    let j := i + 1 + right.earlier.length
    let rows := left.result.rows.union right.result.rows
    record (left.steps ++ right.steps) (j + 1)
      ⟨.union, "Union of two relations", rows, span, depth, [i, j]⟩
  | .join condition l r span => do
    let left ← l.evaluateAt db (depth + 1) index
    let i := index + left.earlier.length
    let right ← r.evaluateAt db (depth + 1) (i + 1)
    let j := i + 1 + right.earlier.length
    let (leftName, rightName) ← readJoin condition span
    let rows := left.result.rows.join right.result.rows leftName rightName
    record (left.steps ++ right.steps) (j + 1)
      ⟨.join, "Join on: " ++ condition, rows, span, depth, [i, j]⟩

/-- The trace of a tree. -/
def Expr.evaluate (db : Lookup) (e : Expr) : Logged (Except MalformedJoin Trace) :=
  (e.evaluateAt db 0 0).run

/-- Why a query has no trace. -/
inductive QueryError where
  | unreadable (e : ParseError)
  | failed (e : MalformedJoin)
deriving DecidableEq

namespace QueryError

/-- The text of the error itself. -/
def cause : QueryError → String
  | unreadable e => e.message
  | failed e => e.message

/-- The text of the error with the stage that met it. -/
def message : QueryError → String
  | unreadable e => "Syntax error: " ++ e.message
  | failed e => "Evaluation error: " ++ e.message

end QueryError

/-- Evaluates a tree as part of a query. -/
def runExpr (db : Lookup) (e : Expr) : Logged (Except QueryError Trace) := do
  return (← e.evaluate db).mapError .failed

/-- The trace of a query. -/
def run (db : Lookup) (query : String) : Logged (Except QueryError Trace) := do
  match ← compile query with
  | .ok e => runExpr db e
  | .error err => return .error (.unreadable err)

end RelTrace
