import RelTrace.Trace.Step

/-!
# Graphs of a trace

Mermaid diagrams of how steps feed each other: of one step with its operands, and of the whole
trace. They need only the kind, the description, the inputs and the number of rows of a step.

## Main definitions

* `GraphNode`: what a diagram shows of a step.
* `stepGraph?`, `traceGraph`: the two diagrams.
-/

namespace RelTrace

/-- What a diagram shows of a step. -/
structure GraphNode where
  operator : Operator
  description : String
  rowCount : Nat
  inputs : List Nat

/-- The node of a step. -/
def Step.graphNode (s : Step) : GraphNode := ⟨s.operator, s.description, s.rows.length, s.inputs⟩

/-- The colour of a kind of node. -/
def Operator.color : Operator → String
  | relation => "#90EE90"
  | projection => "#87CEEB"
  | selection => "#FFB6C1"
  | union => "#DDA0DD"
  | join => "#FFD700"

namespace GraphNode

/-- Quotation marks would end a label and are written as an entity. -/
def escapeQuote (c : Char) : List Char := if c = '"' then "#quot;".toList else [c]

/-- The label of a node: what it does, on a second line its number of rows. -/
def label (caption : String) (n : GraphNode) : String :=
  caption ++ String.ofList (n.description.toList.flatMap escapeQuote) ++ "\\n" ++
    toString n.rowCount ++ " rows"

/-- The name of the node at a place of the trace. -/
def nodeName (index : Nat) : String := "step" ++ toString index

/-- The line that declares a node. -/
def declaration (index : Nat) (caption : String) (n : GraphNode) : String :=
  "    " ++ nodeName index ++ "[\"" ++ n.label caption ++ "\"]\n"

/-- The line of an edge. -/
def edge (source target : Nat) : String :=
  "    " ++ nodeName source ++ " --> " ++ nodeName target ++ "\n"

/-- The line that colours a node. -/
def style (index : Nat) (n : GraphNode) (outline : String) : String :=
  "    style " ++ nodeName index ++ " fill:" ++ n.operator.color ++ outline ++ "\n"

/-- The captions of the operands of a node. -/
def operandCaptions (n : GraphNode) : List String :=
  if n.inputs.length = 1 then ["Previous: "] else ["Left: ", "Right: "]

end GraphNode

/-- The first line of every diagram. -/
def graphHeader : String := "graph TD\n"

/-- The diagram of one step and its operands, if all of them are in the trace. -/
def stepGraph? (nodes : List GraphNode) (index : Nat) : Option String := do
  let node ← nodes[index]?
  let operands ← (node.inputs.zip node.operandCaptions).mapM fun (input, caption) =>
    nodes[input]?.map (GraphNode.declaration input caption)
  let edges := node.inputs.map fun input => GraphNode.edge input index
  return graphHeader ++ String.join operands ++ node.declaration index "" ++ String.join edges ++
    node.style index ""

/-- The diagram of the whole trace, with the current step outlined. -/
def traceGraph (nodes : List GraphNode) (current : Nat) : String :=
  let lines := nodes.zipIdx.map fun (node, index) =>
    let mark := if index = current then "▶ " else ""
    let outline := if index = current then ",stroke:#FF0000,stroke-width:4px" else ""
    node.declaration index (mark ++ "Step " ++ toString (index + 1) ++ ": ") ++
      node.style index outline
  let edges := nodes.zipIdx.map fun (node, index) =>
    String.join (node.inputs.map fun input => GraphNode.edge input index)
  graphHeader ++ String.join lines ++ String.join edges

end RelTrace
