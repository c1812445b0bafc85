import RelTrace.Relation.Json
import RelTrace.Trace.Step

/-!
# Traces in JSON

A trace is a list of objects, one for each step.

## Main definitions

* `Step.toJson`: one step.
* `stepsToJson`: some steps of a trace.
-/

namespace RelTrace

/-- A span as an object. -/
def Span.toJson (s : Span) : Json :=
  .object [("start", .ofNat s.start), ("end", .ofNat s.stop)]

/-- A step as an object. -/
def Step.toJson (s : Step) : Json :=
  .object [("kind", .string s.operator.name), ("description", .string s.description),
    ("data", s.rows.toJson), ("span", s.span.toJson), ("depth", .ofNat s.depth),
    ("inputs", .list (s.inputs.map Json.ofNat))]

/-- Some steps of a trace as a list. -/
def stepsToJson (steps : List Step) : Json := .list (steps.map Step.toJson)

end RelTrace
