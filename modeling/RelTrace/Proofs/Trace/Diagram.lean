import RelTrace.Proofs.Lists
import RelTrace.Proofs.Text.Lines
import RelTrace.Trace.Graph

/-!
# The lines of a diagram

A diagram consists of lines that declare a node, give a node its colour or draw an edge. Each line
can be read in one way only, and so a text is a diagram in at most one way: it tells which nodes it
declares, how it colours them and which edges it draws.

## Main definitions

* `DiagramLine`: what a line says.
* `IsDiagram`: the lines that a text is the diagram of.
* `traceLines`, `stepLines`: the lines of the two diagrams of a trace.
-/

namespace RelTrace

theorem toDigits_inj {m n : Nat} (h : Nat.toDigits 10 m = Nat.toDigits 10 n) : m = n := by
  rw [← Nat.ofDigitChars_ten_toDigits (n := m), h, Nat.ofDigitChars_ten_toDigits]

/-- What a line of a diagram says. -/
inductive DiagramLine where
  | node (index : Nat) (label : String)
  | style (index : Nat) (operator : Operator) (outlined : Bool)
  | edge (source target : Nat)

namespace DiagramLine

/-- How a style sets the colour, and the outline if there is one. -/
def fill (operator : Operator) (outlined : Bool) : String :=
  " fill:" ++ operator.color ++ if outlined then ",stroke:#FF0000,stroke-width:4px" else ""

/-- What stands before the first place of a line. -/
def start (isStyle : Bool) : String := if isStyle then "    style step" else "    step"

theorem fill_inj {operator operator' : Operator} {outlined outlined' : Bool}
    (h : fill operator outlined = fill operator' outlined') :
    operator = operator' ∧ outlined = outlined' := by
  revert h
  cases operator <;> cases operator' <;> revert outlined outlined' <;> decide

theorem newline_notMem_fill (operator : Operator) (outlined : Bool) :
    '\n' ∉ (fill operator outlined).toList := by
  have hcolor : '\n' ∉ operator.color.toList := by cases operator <;> decide
  simp only [fill, String.toList_append, List.mem_append, not_or]
  exact ⟨⟨by decide, hcolor⟩, by cases outlined <;> decide⟩

/-- Whether the line gives a node its colour. -/
def isStyle : DiagramLine → Bool
  | style _ _ _ => true
  | _ => false

/-- The place that the line names first. -/
def place : DiagramLine → Nat
  | node index _ | style index _ _ | edge index _ => index

/-- What stands behind that place. -/
def ending : DiagramLine → String
  | node _ label => "[\"" ++ label ++ "\"]"
  | style _ operator outlined => fill operator outlined
  | edge _ target => " --> step" ++ toString target

/-- The line without its end. -/
def text (l : DiagramLine) : String := start l.isStyle ++ toString l.place ++ l.ending

variable {l l' : DiagramLine}

theorem toList_text (l : DiagramLine) :
    l.text.toList = (start l.isStyle).toList ++ (Nat.toDigits 10 l.place ++ l.ending.toList) := by
  rw [text, String.toList_append, String.toList_append, List.append_assoc,
    Nat.toString_eq_ofList_toDigits, String.toList_ofList]

theorem isStyle_eq_of_text_eq (h : l.text = l'.text) : l.isStyle = l'.isStyle := by
  -- The seventh character tells.
  have hstart : ∀ a b : Bool, (start a).toList[6]? = (start b).toList[6]? → a = b := by decide
  have hlength : ∀ a : Bool, 6 < (start a).toList.length := by decide
  refine hstart _ _ ?_
  rw [← List.getElem?_append_left (hlength l.isStyle), ← toList_text, h, toList_text,
    List.getElem?_append_left (hlength l'.isStyle)]

theorem isDigit_head?_ending (l : DiagramLine) :
    ∀ c ∈ l.ending.toList.head?, c.isDigit = false := by
  cases l with
  | node index label =>
    rw [ending, String.toList_append, String.toList_append]
    exact fun c hc => (Option.some.inj hc) ▸ rfl
  | style index operator outlined =>
    rw [ending, fill, String.toList_append, String.toList_append]
    exact fun c hc => (Option.some.inj hc) ▸ rfl
  | edge source target =>
    rw [ending, String.toList_append]
    exact fun c hc => (Option.some.inj hc) ▸ rfl

/-- A line tells its first place, as no digit follows it. -/
theorem place_and_ending_eq_of_text_eq (h : l.text = l'.text) :
    l.place = l'.place ∧ l.ending = l'.ending := by
  have hlists : l.text.toList = l'.text.toList := by rw [h]
  rw [toList_text, toList_text, isStyle_eq_of_text_eq h, List.append_cancel_left_eq] at hlists
  obtain ⟨hdigits, hending⟩ := Text.append_inj_of_runs
    (fun _ hc => Nat.isDigit_of_mem_toDigits (by decide) (by decide) hc)
    (fun _ hc => Nat.isDigit_of_mem_toDigits (by decide) (by decide) hc)
    l.isDigit_head?_ending l'.isDigit_head?_ending hlists
  exact ⟨toDigits_inj hdigits, String.toList_inj.mp hending⟩

/-- A line can be read in one way only. -/
theorem text_injective : Function.Injective text := by
  intro l l' h
  have hstyle := isStyle_eq_of_text_eq h
  obtain ⟨hplace, hending⟩ := place_and_ending_eq_of_text_eq h
  -- Of two kinds that are no styles, only one goes on with a bracket.
  have hbracket : l.ending.toList.head? = l'.ending.toList.head? := by rw [hending]
  cases l with
  | node index label =>
    cases l' with
    | node index' label' =>
      obtain rfl : index = index' := hplace
      rw [ending, ending, String.append_left_inj, String.append_right_inj] at hending
      rw [hending]
    | style => cases hstyle
    | edge source target =>
      rw [ending, ending, String.toList_append, String.toList_append, String.toList_append]
        at hbracket
      cases hbracket
  | style index operator outlined =>
    cases l' with
    | style index' operator' outlined' =>
      obtain rfl : index = index' := hplace
      obtain ⟨rfl, rfl⟩ := fill_inj hending
      rfl
    | node => cases hstyle
    | edge => cases hstyle
  | edge source target =>
    cases l' with
    | edge source' target' =>
      obtain rfl : source = source' := hplace
      rw [ending, ending, String.append_right_inj, ← String.toList_inj,
        Nat.toString_eq_ofList_toDigits, Nat.toString_eq_ofList_toDigits, String.toList_ofList,
        String.toList_ofList] at hending
      rw [toDigits_inj hending]
    | style => cases hstyle
    | node index label =>
      rw [ending, ending, String.toList_append, String.toList_append, String.toList_append]
        at hbracket
      cases hbracket

/-- The node that the line declares, with its label. -/
def declared? : DiagramLine → Option (Nat × String)
  | node index label => some (index, label)
  | _ => none

/-- The node that the line colours. -/
def styled? : DiagramLine → Option (Nat × Operator × Bool)
  | style index operator outlined => some (index, operator, outlined)
  | _ => none

/-- The edge that the line draws. -/
def edge? : DiagramLine → Option (Nat × Nat)
  | edge source target => some (source, target)
  | _ => none

end DiagramLine

section Readings

variable (ls : List DiagramLine)

/-- The nodes that the lines declare, with their labels. -/
def declared : List (Nat × String) := ls.filterMap DiagramLine.declared?

/-- The nodes that the lines colour, with their operators and whether they are outlined. -/
def styled : List (Nat × Operator × Bool) := ls.filterMap DiagramLine.styled?

/-- The edges that the lines draw. -/
def drawn : List (Nat × Nat) := ls.filterMap DiagramLine.edge?

end Readings

/-! ## Labels -/

/-- The character ends a line. -/
def Text.isLineBreak (c : Char) : Bool :=
  (10 ≤ c.toNat && c.toNat ≤ 13) || c.toNat == 0x85 || c.toNat == 0x2028 || c.toNat == 0x2029

/-- The text contains no end of a line. -/
def Text.IsUnbroken (s : String) : Prop := ∀ c ∈ s.toList, isLineBreak c = false

instance : DecidablePred Text.IsUnbroken := fun s =>
  List.decidableBAll _ s.toList

/-- The text can stand between quotation marks on one line. -/
def IsLabel (s : String) : Prop := ∀ c ∈ s.toList, c ≠ '"' ∧ Text.isLineBreak c = false

instance : DecidablePred IsLabel := fun s =>
  List.decidableBAll _ s.toList

variable {s s' : String}

theorem isLabel_append_iff : IsLabel (s ++ s') ↔ IsLabel s ∧ IsLabel s' := by
  simp only [IsLabel, String.toList_append, List.forall_mem_append]

theorem IsLabel.newline_notMem (h : IsLabel s) : '\n' ∉ s.toList := fun hmem =>
  absurd (h _ hmem).2 (by decide)

theorem isLabel_toString (n : Nat) : IsLabel (toString n) := by
  rw [Nat.toString_eq_ofList_toDigits, IsLabel, String.toList_ofList]
  intro c hc
  have hdigit := Nat.isDigit_of_mem_toDigits (by decide) (by decide) hc
  obtain ⟨hle, hge⟩ : 48 ≤ c.toNat ∧ c.toNat ≤ 57 := Char.isDigit_iff_toNat.mp hdigit
  constructor
  · rintro rfl
    exact absurd hle (by decide)
  · simp only [Text.isLineBreak, Bool.or_eq_false_iff, Bool.and_eq_false_iff, beq_eq_false_iff_ne,
      decide_eq_false_iff_not]
    omega

/-- Quotation marks are written as an entity. -/
theorem isLabel_escape {description : String} (h : Text.IsUnbroken description) :
    IsLabel (String.ofList (description.toList.flatMap GraphNode.escapeQuote)) := by
  rw [IsLabel, String.toList_ofList]
  intro c hc
  obtain ⟨d, hd, hc⟩ := List.mem_flatMap.mp hc
  rw [GraphNode.escapeQuote] at hc
  split at hc
  · have hentity : IsLabel "#quot;" := by decide
    exact hentity c hc
  · next hne =>
    obtain rfl := List.mem_singleton.mp hc
    exact ⟨hne, h c hd⟩

theorem GraphNode.isLabel_label {node : GraphNode} {caption : String} (hcaption : IsLabel caption)
    (h : Text.IsUnbroken node.description) : IsLabel (node.label caption) := by
  have hbreak : IsLabel "\\n" := by decide
  have hrows : IsLabel " rows" := by decide
  simp only [label, isLabel_append_iff]
  exact ⟨⟨⟨⟨hcaption, isLabel_escape h⟩, hbreak⟩, isLabel_toString _⟩, hrows⟩

/-! ## Diagrams -/

/-- The text is the diagram with the lines. -/
def IsDiagram (text : String) (ls : List DiagramLine) : Prop :=
  Text.HasLines text ("graph TD" :: ls.map DiagramLine.text)

variable {text : String} {ls ls' : List DiagramLine}

/-- A text is a diagram in one way only. -/
theorem IsDiagram.iff_eq (h : IsDiagram text ls) : IsDiagram text ls' ↔ ls' = ls := by
  constructor
  · intro h'
    exact DiagramLine.text_injective.list_map (List.cons.inj (h'.unique h)).2
  · rintro rfl
    exact h

theorem DiagramLine.newline_notMem_text {l : DiagramLine}
    (h : ∀ entry ∈ l.declared?, IsLabel entry.2) : '\n' ∉ l.text.toList := by
  have hstart : ∀ a : Bool, '\n' ∉ (start a).toList := by decide
  have hending : '\n' ∉ l.ending.toList := by
    cases l with
    | node index label =>
      have hlabel : IsLabel label := h (index, label) rfl
      have hbrackets : '\n' ∉ "[\"".toList ∧ '\n' ∉ "\"]".toList := by decide
      simp only [ending, String.toList_append, List.mem_append, not_or]
      exact ⟨⟨hbrackets.1, hlabel.newline_notMem⟩, hbrackets.2⟩
    | style index operator outlined => exact newline_notMem_fill operator outlined
    | edge source target =>
      have harrow : '\n' ∉ " --> step".toList := by decide
      simp only [ending, String.toList_append, List.mem_append, not_or]
      exact ⟨harrow, (isLabel_toString target).newline_notMem⟩
  simp only [text, String.toList_append, List.mem_append, not_or]
  exact ⟨⟨hstart _, (isLabel_toString l.place).newline_notMem⟩, hending⟩

theorem isDiagram_unlines (h : ∀ entry ∈ declared ls, IsLabel entry.2) :
    IsDiagram (Text.unlines ("graph TD" :: ls.map DiagramLine.text)) ls where
  eq_unlines := rfl
  notMem := by
    refine List.forall_mem_cons.mpr ⟨by decide, List.forall_mem_map.mpr fun l hl => ?_⟩
    exact DiagramLine.newline_notMem_text fun entry hentry =>
      h entry (List.mem_filterMap.mpr ⟨l, hl, hentry⟩)

/-! ## The two diagrams of a trace -/

/-- The edges from the operands of nodes, whose lists are given in the order of the nodes. -/
def edgesFrom (index : Nat) (inputs : List (List Nat)) : List (Nat × Nat) :=
  (inputs.zipIdx index).flatMap fun (sources, target) => sources.map fun source => (source, target)

namespace GraphNode

/-- The caption of a node in the diagram of a whole trace. -/
def traceCaption (current index : Nat) : String :=
  (if index = current then "▶ " else "") ++ "Step " ++ toString (index + 1) ++ ": "

theorem declaration_eq (index : Nat) (caption : String) (n : GraphNode) :
    n.declaration index caption = (DiagramLine.node index (n.label caption)).text ++ "\n" := by
  rw [declaration, nodeName, DiagramLine.text]
  simp [DiagramLine.start, DiagramLine.isStyle, DiagramLine.place, DiagramLine.ending,
    ← String.toList_inj]

theorem edge_eq (source target : Nat) :
    edge source target = (DiagramLine.edge source target).text ++ "\n" := by
  rw [edge, nodeName, nodeName, DiagramLine.text]
  simp [DiagramLine.start, DiagramLine.isStyle, DiagramLine.place, DiagramLine.ending,
    ← String.toList_inj]

theorem style_eq (index : Nat) (n : GraphNode) (outlined : Bool) :
    n.style index (if outlined then ",stroke:#FF0000,stroke-width:4px" else "") =
      (DiagramLine.style index n.operator outlined).text ++ "\n" := by
  generalize houtline : (if outlined then ",stroke:#FF0000,stroke-width:4px" else "") = outline
  have hstyle : n.style index outline = "    style " ++ ("step" ++ toString index) ++ " fill:" ++
      n.operator.color ++ outline ++ "\n" := rfl
  rw [hstyle, DiagramLine.text]
  simp [DiagramLine.start, DiagramLine.isStyle, DiagramLine.place, DiagramLine.ending,
    DiagramLine.fill, houtline, ← String.toList_inj]

/-- The lines of a node in the diagram of a whole trace. -/
def traceLines (current index : Nat) (n : GraphNode) : List DiagramLine :=
  [.node index (n.label (traceCaption current index)),
    .style index n.operator (decide (index = current))]

end GraphNode

/-- The lines of the diagram of a whole trace. -/
def traceLines (nodes : List GraphNode) (current : Nat) : List DiagramLine :=
  (nodes.zipIdx.flatMap fun (node, index) => node.traceLines current index) ++
    (edgesFrom 0 (nodes.map GraphNode.inputs)).map fun e => .edge e.1 e.2

/-- The lines of the diagram of one node, whose operands are looked up among the nodes. -/
def stepLines (nodes : List GraphNode) (index : Nat) (node : GraphNode) : List DiagramLine :=
  ((node.inputs.zip node.operandCaptions).map fun (input, caption) =>
      .node input ((nodes[input]?.getD node).label caption)) ++
    .node index (node.label "") :: (node.inputs.map fun input => .edge input index) ++
    [.style index node.operator false]

theorem unlines_traceLines (current index : Nat) (n : GraphNode) :
    Text.unlines ((n.traceLines current index).map DiagramLine.text) =
      n.declaration index (GraphNode.traceCaption current index) ++
        n.style index (if index = current then ",stroke:#FF0000,stroke-width:4px" else "") := by
  have hstyle := n.style_eq index (decide (index = current))
  simp only [decide_eq_true_eq] at hstyle
  rw [hstyle, GraphNode.declaration_eq]
  simp [GraphNode.traceLines]

theorem unlines_edges (sources : List Nat) (target : Nat) :
    Text.unlines ((sources.map fun source => DiagramLine.edge source target).map
      DiagramLine.text) = String.join (sources.map fun source => GraphNode.edge source target) := by
  simp only [Text.unlines, List.map_map, GraphNode.edge_eq, Function.comp_def]

theorem traceGraph_eq (nodes : List GraphNode) (current : Nat) :
    traceGraph nodes current =
      Text.unlines ("graph TD" :: (traceLines nodes current).map DiagramLine.text) := by
  have hedges : Text.unlines (((edgesFrom 0 (nodes.map GraphNode.inputs)).map fun e =>
      DiagramLine.edge e.1 e.2).map DiagramLine.text) =
        String.join (nodes.zipIdx.map fun (node, index) =>
          String.join (node.inputs.map fun input => GraphNode.edge input index)) := by
    simp only [edgesFrom, List.zipIdx_map, List.flatMap_map, List.map_flatMap,
      Text.unlines_flatMap, ← unlines_edges]
    simp [Function.comp_def]
  rw [traceLines, List.map_append, Text.unlines_cons, Text.unlines_append, hedges,
    List.map_flatMap, Text.unlines_flatMap, traceGraph]
  simp only [unlines_traceLines, GraphNode.traceCaption, String.append_assoc]
  rfl

/-- A node whose operands are in the list has a diagram. -/
theorem stepGraph?_eq {nodes : List GraphNode} {index : Nat} {node : GraphNode}
    (hnode : nodes[index]? = some node) (hinputs : ∀ i ∈ node.inputs, i < nodes.length) :
    stepGraph? nodes index =
      some (Text.unlines ("graph TD" :: (stepLines nodes index node).map DiagramLine.text)) := by
  have hoperands : ∀ p ∈ node.inputs.zip node.operandCaptions,
      nodes[p.1]?.map (GraphNode.declaration p.1 p.2) =
        some ((DiagramLine.node p.1 ((nodes[p.1]?.getD node).label p.2)).text ++ "\n") := by
    intro p hp
    have hinput := hinputs p.1 (List.of_mem_zip hp).1
    rw [List.getElem?_eq_getElem hinput, Option.map_some, GraphNode.declaration_eq,
      Option.getD_some]
  have hstyle : node.style index "" =
      (DiagramLine.style index node.operator false).text ++ "\n" := node.style_eq index false
  unfold stepGraph?
  simp only [hnode, Option.bind_eq_bind, Option.bind_some, mapM_eq_some_map hoperands]
  simp only [stepLines, List.map_append, List.map_cons, List.map_nil, Text.unlines_cons,
    Text.unlines_append, Text.unlines_nil, unlines_edges, GraphNode.declaration_eq, hstyle,
    String.append_empty, String.append_assoc]
  simp only [Text.unlines, List.map_map, Function.comp_def]
  rfl

section Readings

variable (nodes : List GraphNode) (node : GraphNode) (current index : Nat)

theorem declared_traceLines :
    declared (traceLines nodes current) = nodes.zipIdx.map fun (node, index) =>
      (index, node.label (GraphNode.traceCaption current index)) := by
  simp [declared, traceLines, GraphNode.traceLines, DiagramLine.declared?, List.filterMap_append,
    List.filterMap_flatMap, List.filterMap_cons, Function.comp_def, ← List.map_eq_flatMap]

theorem styled_traceLines :
    styled (traceLines nodes current) = nodes.zipIdx.map fun (node, index) =>
      (index, node.operator, decide (index = current)) := by
  simp [styled, traceLines, GraphNode.traceLines, DiagramLine.styled?, List.filterMap_append,
    List.filterMap_flatMap, List.filterMap_cons, Function.comp_def, ← List.map_eq_flatMap]

theorem drawn_traceLines :
    drawn (traceLines nodes current) = edgesFrom 0 (nodes.map GraphNode.inputs) := by
  simp [drawn, traceLines, GraphNode.traceLines, DiagramLine.edge?, List.filterMap_append,
    List.filterMap_flatMap, List.filterMap_cons, Function.comp_def]

theorem declared_stepLines :
    declared (stepLines nodes index node) =
      ((node.inputs.zip node.operandCaptions).map fun (input, caption) =>
        (input, (nodes[input]?.getD node).label caption)) ++ [(index, node.label "")] := by
  simp [declared, stepLines, DiagramLine.declared?, Function.comp_def]

theorem drawn_stepLines :
    drawn (stepLines nodes index node) = node.inputs.map fun input => (input, index) := by
  simp [drawn, stepLines, DiagramLine.edge?, List.filterMap_cons, Function.comp_def]

end Readings

end RelTrace
