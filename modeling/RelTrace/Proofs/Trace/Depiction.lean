import Mathlib.Logic.Relation
import RelTrace.Proofs.Query.WellFormed
import RelTrace.Proofs.Trace.Diagram
import RelTrace.Proofs.Trace.NumericSelection
import RelTrace.Proofs.Trace.Shape

/-!
# What diagrams depict

The diagrams of a trace depict the tree of its query. The edges run from the operands to their
operators, so every step but the last has one edge, which leads to a later step, and all of them
lead to the last one in the end. The diagram of one step is the part of the diagram of the trace
that enters this step.

## Main definitions

* `Trace.edges`: the pairs of a step and an operand.
* `IsTree`: the edges make a tree whose root is the last place.
* `DepictsTrace`, `DepictsStep`: what the two diagrams show.
-/

namespace RelTrace

/-! ## Edges -/

section Edges

variable {inputs : List (List Nat)} {index i j : Nat}

theorem edgesFrom_cons (index : Nat) (sources : List Nat) (inputs : List (List Nat)) :
    edgesFrom index (sources :: inputs) =
      (sources.map fun source => (source, index)) ++ edgesFrom (index + 1) inputs := rfl

theorem map_fst_edgesFrom (index : Nat) (inputs : List (List Nat)) :
    (edgesFrom index inputs).map Prod.fst = inputs.flatten := by
  induction inputs generalizing index with
  | nil => rfl
  | cons sources inputs ih =>
    rw [edgesFrom_cons, List.map_append, ih, List.map_map, List.flatten_cons]
    simp [Function.comp_def]

theorem mem_edgesFrom : (i, j) ∈ edgesFrom index inputs ↔
    index ≤ j ∧ ∃ sources, inputs[j - index]? = some sources ∧ i ∈ sources := by
  simp only [edgesFrom, List.mem_flatMap, Prod.exists, List.mk_mem_zipIdx_iff_le_and_getElem?_sub,
    List.mem_map, Prod.mk.injEq]
  grind

/-- The edges that enter a place come from the operands there. -/
theorem filter_edgesFrom (index k : Nat) (inputs : List (List Nat)) :
    (edgesFrom index inputs).filter (fun e => e.2 = index + k) =
      (inputs[k]?.getD []).map fun source => (source, index + k) := by
  induction inputs generalizing index k with
  | nil => rfl
  | cons sources inputs ih =>
    rw [edgesFrom_cons, List.filter_append]
    cases k with
    | zero =>
      have hlater : (edgesFrom (index + 1) inputs).filter (fun e => e.2 = index) = [] := by
        refine List.filter_eq_nil_iff.mpr fun e he => ?_
        have hle := (mem_edgesFrom.mp he).1
        simp only [decide_eq_true_eq]
        omega
      have hhere : (sources.map fun source => (source, index)).filter (fun e => e.2 = index) =
          sources.map fun source => (source, index) :=
        List.filter_eq_self.mpr (List.forall_mem_map.mpr fun _ _ => decide_eq_true rfl)
      simp [hlater, hhere]
    | succ k =>
      have hhere : (sources.map fun source => (source, index)).filter
          (fun e => e.2 = index + (k + 1)) = [] :=
        List.filter_eq_nil_iff.mpr (List.forall_mem_map.mpr fun _ _ => by simp)
      rw [hhere, List.nil_append, show index + (k + 1) = index + 1 + k by omega, ih]
      rfl

end Edges

/-- The pairs of a step and an operand, as the places of the operand and the step. -/
def Trace.edges (t : Trace) : List (Nat × Nat) := edgesFrom 0 (t.steps.map Step.inputs)

/-- The edges make a tree of the places below a bound. Each place but the last one has one edge,
which leads to a later place, and from each of them there is a way to the last one. -/
structure IsTree (count : Nat) (edges : List (Nat × Nat)) : Prop where
  length_eq : edges.length + 1 = count
  count_source : ∀ i, i + 1 < count → (edges.map Prod.fst).count i = 1
  later : ∀ i j, (i, j) ∈ edges → i < j ∧ j < count
  reaches : ∀ i, i < count → Relation.ReflTransGen (fun i j => (i, j) ∈ edges) i (count - 1)

section Tree

variable {db : Lookup} {e : Expr} {t : Trace}

theorem Trace.map_fst_edges (t : Trace) : t.edges.map Prod.fst = t.steps.flatMap Step.inputs := by
  rw [edges, map_fst_edgesFrom, List.flatMap_def]

theorem Trace.mem_edges {i j : Nat} :
    (i, j) ∈ t.edges ↔ ∃ s, t.steps[j]? = some s ∧ i ∈ s.inputs := by
  simp [edges, mem_edgesFrom]

/-- The places with an edge are all but the last one. -/
theorem perm_map_fst_edges (h : (e.evaluate db).value = .ok t) :
    (t.edges.map Prod.fst).Perm (List.range (t.steps.length - 1)) := by
  rw [List.perm_iff_count]
  intro i
  rw [t.map_fst_edges, Expr.steps_of_evaluate h, Expr.count_inputs_stepsAt, Expr.length_stepsAt,
    List.count_range]
  grind

/-- No step has an operand twice. -/
theorem nodup_inputs (h : (e.evaluate db).value = .ok t) {s : Step} (hs : s ∈ t.steps) :
    s.inputs.Nodup := by
  have hnodup := (perm_map_fst_edges h).nodup_iff.mpr List.nodup_range
  rw [t.map_fst_edges, List.nodup_flatMap] at hnodup
  exact hnodup.1 s hs

theorem Trace.filter_edges {index : Nat} {s : Step} (hs : t.steps[index]? = some s) :
    (t.edges.filter fun e => e.2 = index) = s.inputs.map fun i => (i, index) := by
  have hfilter := filter_edgesFrom 0 index (t.steps.map Step.inputs)
  rw [Nat.zero_add, List.getElem?_map, hs] at hfilter
  exact hfilter

theorem isTree_edges (h : (e.evaluate db).value = .ok t) : IsTree t.steps.length t.edges := by
  have hperm := perm_map_fst_edges h
  have hlater : ∀ i j, (i, j) ∈ t.edges → i < j ∧ j < t.steps.length := by
    intro i j hmem
    obtain ⟨s, hs, hi⟩ := Trace.mem_edges.mp hmem
    exact ⟨((evaluate_hasShapeOf h).input hs hi).1, (List.getElem?_eq_some_iff.mp hs).1⟩
  have hpos : 0 < t.steps.length := by simp [Trace.steps]
  refine ⟨?_, fun i hi => ?_, hlater, fun i hi => ?_⟩
  · have hlength := hperm.length_eq
    rw [List.length_map, List.length_range] at hlength
    omega
  · rw [hperm.count_eq, List.count_range, if_pos (by omega)]
  · -- The way from a place goes on from the later place that its edge leads to.
    induction hk : t.steps.length - i using Nat.strongRecOn generalizing i with
    | ind k ih =>
      by_cases hlast : i + 1 < t.steps.length
      · obtain ⟨j, s, hij, hs, his⟩ := (evaluate_hasShapeOf h).used_later i hlast
        have hedge : (i, j) ∈ t.edges := Trace.mem_edges.mpr ⟨s, hs, his⟩
        have hj := (hlater i j hedge).2
        exact .head hedge (ih (t.steps.length - j) (by omega) j hj rfl)
      · rw [show i = t.steps.length - 1 by omega]

end Tree

/-! ## Descriptions -/

theorem Text.isLineBreak_eq_false_of_isKept {c : Char} (h : Token.isKept c) :
    isLineBreak c = false := by
  have hblank := Token.isBlank_eq_false_of_isKept h
  simp only [isBlank, isLineBreak, Bool.or_eq_false_iff, Bool.and_eq_false_iff,
    decide_eq_false_iff_not, beq_eq_false_iff_ne] at hblank ⊢
  omega

namespace Expr

/-- What descriptions say around names and conditions. -/
def phrases : List String :=
  ["Access base relation: ", "Project attributes: [", ", ", "]", "Filter rows where: ",
    "Union of two relations", "Join on: "]

/-- A description is made of phrases and of characters that tokens keep. -/
theorem WellFormed.isKept_or_mem_phrases {node : Expr} (h : node.WellFormed) {c : Char}
    (hc : c ∈ node.description.toList) :
    Token.isKept c ∨ ∃ phrase ∈ phrases, c ∈ phrase.toList := by
  have hphrase (phrase : String) (hmem : phrase ∈ phrases) (hc : c ∈ phrase.toList) :
      Token.isKept c ∨ ∃ phrase ∈ phrases, c ∈ phrase.toList := .inr ⟨phrase, hmem, hc⟩
  cases node with
  | relation name span =>
    have hname : Token.IsName name := h
    change c ∈ ("Access base relation: " ++ name).toList at hc
    rw [String.toList_append, List.mem_append] at hc
    exact hc.elim (hphrase _ (by decide)) fun hc => .inl (hname.isKept c hc)
  | project attributes e span =>
    change c ∈ ("Project attributes: [" ++ ", ".intercalate attributes ++ "]").toList at hc
    rw [String.toList_append, String.toList_append, List.mem_append, List.mem_append] at hc
    rcases hc with (hc | hc) | hc
    · exact hphrase _ (by decide) hc
    · by_cases hcomma : c ∈ ", ".toList
      · exact hphrase ", " (by decide) hcomma
      · obtain ⟨name, hname, hc⟩ := (Text.mem_intercalate hcomma).mp hc
        exact .inl ((h.1 name hname).isKept c hc)
    · exact hphrase _ (by decide) hc
  | select condition e span =>
    change c ∈ ("Filter rows where: " ++ condition).toList at hc
    rw [String.toList_append, List.mem_append] at hc
    exact hc.elim (hphrase _ (by decide)) fun hc => .inl (h.1 c hc).1
  | union l r span => exact hphrase "Union of two relations" (by decide) hc
  | join condition l r span =>
    change c ∈ ("Join on: " ++ condition).toList at hc
    rw [String.toList_append, List.mem_append] at hc
    exact hc.elim (hphrase _ (by decide)) fun hc => .inl (h.1 c hc).1

theorem Occurs.wellFormed {s e : Expr} {d i : Nat} (h : Occurs s d i e) (he : e.WellFormed) :
    s.WellFormed := by
  induction h with
  | here => exact he
  | project _ ih | select _ ih => exact ih he.2
  | unionLeft _ ih => exact ih he.1
  | unionRight _ ih => exact ih he.2
  | joinLeft _ ih => exact ih he.2.1
  | joinRight _ ih => exact ih he.2.2

variable {db : Lookup} {e : Expr} {t : Trace} {j : Nat} {s : Step}

/-- Every step is the step of a node. -/
theorem exists_stepAt (h : (e.evaluate db).value = .ok t) (hs : t.steps[j]? = some s) :
    ∃ node d i, Occurs node d i e ∧ s = node.stepAt db s.depth j := by
  rw [steps_of_evaluate h] at hs
  obtain ⟨node, hnode, hstep⟩ := stepsAt_eq_some hs
  obtain ⟨d, i, hoccurs, -, -⟩ := exists_occurs_of_getElem?_postorder hnode
  exact ⟨node, d, i, hoccurs, hstep⟩

theorem length_inputs_le (h : (e.evaluate db).value = .ok t) (hs : t.steps[j]? = some s) :
    s.inputs.length ≤ 2 := by
  obtain ⟨node, -, -, -, hstep⟩ := exists_stepAt h hs
  rw [hstep]
  cases node <;> simp [stepAt, inputsAt]

end Expr

/-! ## Depictions -/

/-- The lines declare the steps at the chosen places, each once, with labels that describe them and
can stand between quotation marks. -/
structure Declares (t : Trace) (chosen : Nat → Prop) (ls : List DiagramLine) : Prop where
  nodup : ((declared ls).map Prod.fst).Nodup
  mem_iff : ∀ j, j ∈ (declared ls).map Prod.fst ↔ chosen j
  describes : ∀ j label, (j, label) ∈ declared ls →
    ∃ s caption, t.steps[j]? = some s ∧ label = s.graphNode.label caption
  isLabel : ∀ j label, (j, label) ∈ declared ls → IsLabel label

/-- The lines show the whole trace and mark and outline the current step. -/
structure DepictsTrace (t : Trace) (current : Nat) (ls : List DiagramLine) : Prop where
  declares : Declares t (· < t.steps.length) ls
  marked_iff : ∀ j label, (j, label) ∈ declared ls →
    ("▶ ".toList <+: label.toList ↔ j = current)
  styled_eq : styled ls = t.steps.zipIdx.map fun (s, j) => (j, s.operator, decide (j = current))
  drawn_eq : drawn ls = t.edges

/-- The lines show a step with its operands, and what of the edges enters the step. -/
structure DepictsStep (t : Trace) (index : Nat) (ls : List DiagramLine) : Prop where
  declares : Declares t (fun j => j = index ∨ (j, index) ∈ t.edges) ls
  drawn_eq : drawn ls = t.edges.filter fun e => e.2 = index

/-- The nodes of a trace. -/
def Trace.nodes (t : Trace) : List GraphNode := t.steps.map Step.graphNode

theorem Trace.getElem?_nodes_eq_some {t : Trace} {j : Nat} {node : GraphNode} :
    t.nodes[j]? = some node ↔ ∃ s, t.steps[j]? = some s ∧ s.graphNode = node := by
  rw [nodes, List.getElem?_map, Option.map_eq_some_iff]

theorem Trace.edges_eq (t : Trace) : t.edges = edgesFrom 0 (t.nodes.map GraphNode.inputs) := by
  rw [nodes, List.map_map]
  rfl

theorem GraphNode.isLabel_traceCaption (current index : Nat) :
    IsLabel (traceCaption current index) := by
  have hphrases : IsLabel "▶ " ∧ IsLabel "" ∧ IsLabel "Step " ∧ IsLabel ": " := by decide
  obtain ⟨hmark, hempty, hstep, hcolon⟩ := hphrases
  simp only [traceCaption, isLabel_append_iff]
  refine ⟨⟨⟨?_, hstep⟩, isLabel_toString _⟩, hcolon⟩
  split
  · exact hmark
  · exact hempty

/-- Only the current node is marked. -/
theorem GraphNode.marked_label_iff (current index : Nat) (n : GraphNode) :
    "▶ ".toList <+: (n.label (traceCaption current index)).toList ↔ index = current := by
  simp only [label, traceCaption, String.toList_append, List.append_assoc]
  split
  · next hcurrent => exact iff_of_true (List.prefix_append _ _) hcurrent
  · next hother =>
    refine iff_of_false (fun hprefix => ?_) hother
    obtain ⟨rest, hrest⟩ := hprefix
    have hhead := congrArg List.head? hrest
    cases hhead

theorem GraphNode.isLabel_of_mem_operandCaptions {n : GraphNode} {caption : String}
    (h : caption ∈ n.operandCaptions) : IsLabel caption := by
  have hphrases : ∀ caption ∈ ["Previous: ", "Left: ", "Right: "], IsLabel caption := by decide
  rw [operandCaptions] at h
  split at h
  · exact hphrases caption (by simp_all)
  · exact hphrases caption (List.mem_cons_of_mem _ h)

theorem GraphNode.length_inputs_le {n : GraphNode} (h : n.inputs.length ≤ 2) :
    n.inputs.length ≤ n.operandCaptions.length := by
  rw [operandCaptions]
  split
  · next hone => rw [hone, List.length_singleton]
  · exact h

section Declared

variable {t : Trace} {current index j : Nat} {label : String}

theorem map_fst_declared_traceLines (t : Trace) (current : Nat) :
    (declared (traceLines t.nodes current)).map Prod.fst = List.range t.steps.length := by
  rw [declared_traceLines, List.map_map, List.range_eq_range']
  simp [Function.comp_def, Trace.nodes]

theorem exists_of_mem_declared_traceLines
    (h : (j, label) ∈ declared (traceLines t.nodes current)) :
    ∃ s, t.steps[j]? = some s ∧ label = s.graphNode.label (GraphNode.traceCaption current j) := by
  rw [declared_traceLines] at h
  obtain ⟨⟨node, k⟩, hnode, heq⟩ := List.mem_map.mp h
  obtain ⟨rfl, rfl⟩ := Prod.mk.inj heq
  obtain ⟨s, hs, rfl⟩ := Trace.getElem?_nodes_eq_some.mp (List.mk_mem_zipIdx_iff_getElem?.mp hnode)
  exact ⟨s, hs, rfl⟩

theorem map_fst_declared_stepLines {s : Step} (h : s.inputs.length ≤ 2) (t : Trace) (index : Nat) :
    (declared (stepLines t.nodes index s.graphNode)).map Prod.fst = s.inputs ++ [index] := by
  rw [declared_stepLines, List.map_append, List.map_map, List.map_singleton]
  congr 1
  exact List.map_fst_zip (GraphNode.length_inputs_le h)

theorem exists_of_mem_declared_stepLines {s : Step} (hs : t.steps[index]? = some s)
    (hinputs : ∀ i ∈ s.inputs, ∃ operand, t.steps[i]? = some operand)
    (h : (j, label) ∈ declared (stepLines t.nodes index s.graphNode)) :
    ∃ s' caption, t.steps[j]? = some s' ∧ IsLabel caption ∧
      label = s'.graphNode.label caption := by
  rw [declared_stepLines, List.mem_append, List.mem_singleton] at h
  rcases h with hoperand | hself
  · obtain ⟨⟨i, caption⟩, hzip, heq⟩ := List.mem_map.mp hoperand
    obtain ⟨rfl, rfl⟩ := Prod.mk.inj heq
    obtain ⟨hi, hcaption⟩ := List.of_mem_zip hzip
    obtain ⟨operand, hoperand⟩ := hinputs i hi
    refine ⟨operand, caption, hoperand, GraphNode.isLabel_of_mem_operandCaptions hcaption, ?_⟩
    rw [Trace.getElem?_nodes_eq_some.mpr ⟨operand, hoperand, rfl⟩, Option.getD_some]
  · obtain ⟨rfl, rfl⟩ := Prod.mk.inj hself
    exact ⟨s, "", hs, by decide, rfl⟩

end Declared

section Query

variable {db : Lookup} {query : String} {t : Trace}

theorem isKept_or_mem_phrases_of_run (h : (run db query).value = .ok t) {s : Step}
    (hs : s ∈ t.steps) {c : Char} (hc : c ∈ s.description.toList) :
    Token.isKept c ∨ ∃ phrase ∈ Expr.phrases, c ∈ phrase.toList := by
  obtain ⟨e, he, heval⟩ := run_eq_ok_iff.mp h
  obtain ⟨j, hj⟩ := List.mem_iff_getElem?.mp hs
  obtain ⟨node, d, i, hoccurs, hstep⟩ := Expr.exists_stepAt heval hj
  rw [hstep] at hc
  exact (hoccurs.wellFormed (wellFormed_of_compile he)).isKept_or_mem_phrases hc

theorem isUnbroken_description_of_run (h : (run db query).value = .ok t) {s : Step}
    (hs : s ∈ t.steps) : Text.IsUnbroken s.description := by
  have hphrases : ∀ phrase ∈ Expr.phrases, Text.IsUnbroken phrase := by decide
  intro c hc
  rcases isKept_or_mem_phrases_of_run h hs hc with hkept | ⟨phrase, hphrase, hc⟩
  · exact Text.isLineBreak_eq_false_of_isKept hkept
  · exact hphrases phrase hphrase c hc

theorem depictsTrace_traceLines (h : (run db query).value = .ok t) (current : Nat) :
    DepictsTrace t current (traceLines t.nodes current) := by
  refine ⟨⟨?_, fun j => ?_, ?_, ?_⟩, ?_, ?_, ?_⟩
  · rw [map_fst_declared_traceLines]
    exact List.nodup_range
  · rw [map_fst_declared_traceLines, List.mem_range]
  · intro j label hmem
    obtain ⟨s, hs, rfl⟩ := exists_of_mem_declared_traceLines hmem
    exact ⟨s, _, hs, rfl⟩
  · intro j label hmem
    obtain ⟨s, hs, rfl⟩ := exists_of_mem_declared_traceLines hmem
    exact GraphNode.isLabel_label (GraphNode.isLabel_traceCaption current j)
      (isUnbroken_description_of_run h (List.mem_of_getElem? hs))
  · intro j label hmem
    obtain ⟨s, -, rfl⟩ := exists_of_mem_declared_traceLines hmem
    exact GraphNode.marked_label_iff current j s.graphNode
  · rw [styled_traceLines, Trace.nodes, List.zipIdx_map, List.map_map]
    rfl
  · rw [drawn_traceLines, Trace.edges_eq]

theorem depictsStep_stepLines (h : (run db query).value = .ok t) {index : Nat} {s : Step}
    (hs : t.steps[index]? = some s) :
    DepictsStep t index (stepLines t.nodes index s.graphNode) := by
  obtain ⟨e, -, heval⟩ := run_eq_ok_iff.mp h
  have hinputs : ∀ i ∈ s.inputs, i < index ∧ ∃ operand, t.steps[i]? = some operand := by
    intro i hi
    obtain ⟨hlt, operand, hoperand, -⟩ := (evaluate_hasShapeOf heval).input hs hi
    exact ⟨hlt, operand, hoperand⟩
  have hplaces := map_fst_declared_stepLines (Expr.length_inputs_le heval hs) t index
  refine ⟨⟨?_, fun j => ?_, ?_, ?_⟩, ?_⟩
  · rw [hplaces, List.nodup_append]
    refine ⟨nodup_inputs heval (List.mem_of_getElem? hs), List.nodup_singleton _, ?_⟩
    intro i hi j hj
    rw [List.mem_singleton.mp hj]
    exact (hinputs i hi).1.ne
  · rw [hplaces, List.mem_append, List.mem_singleton, or_comm, Trace.mem_edges, hs]
    simp
  · intro j label hmem
    obtain ⟨s', caption, hs', -, rfl⟩ :=
      exists_of_mem_declared_stepLines hs (fun i hi => (hinputs i hi).2) hmem
    exact ⟨s', caption, hs', rfl⟩
  · intro j label hmem
    obtain ⟨s', caption, hs', hcaption, rfl⟩ :=
      exists_of_mem_declared_stepLines hs (fun i hi => (hinputs i hi).2) hmem
    exact GraphNode.isLabel_label hcaption
      (isUnbroken_description_of_run h (List.mem_of_getElem? hs'))
  · rw [drawn_stepLines, Trace.filter_edges hs]
    rfl

end Query

/-- The steps of a query and their operands make a tree. The diagram of the whole trace declares
every step, colours each and outlines and marks the current one, and its edges are those of the
tree. The diagram of a step declares the step and its operands, and its edges are those of the tree
that enter the step; there is one for the places of the trace only. Each diagram can be read in one
way only, and no label in it ends early. -/
theorem diagrams_depict_tree {db : Lookup} {query : String} {t : Trace}
    (h : (run db query).value = .ok t) :
    IsTree t.steps.length t.edges ∧
      (∀ i < t.steps.length,
        (∃ ls, (∀ ls', IsDiagram (traceGraph t.nodes i) ls' ↔ ls' = ls) ∧ DepictsTrace t i ls) ∧
        ∃ text ls, stepGraph? t.nodes i = some text ∧ (∀ ls', IsDiagram text ls' ↔ ls' = ls) ∧
          DepictsStep t i ls) ∧
      ∀ i, t.steps.length ≤ i → stepGraph? t.nodes i = none := by
  obtain ⟨e, -, heval⟩ := run_eq_ok_iff.mp h
  refine ⟨isTree_edges heval, fun i hi => ⟨?_, ?_⟩, fun i hi => ?_⟩
  · have hdepicts := depictsTrace_traceLines h i
    refine ⟨_, fun ls' => ?_, hdepicts⟩
    rw [traceGraph_eq]
    exact (isDiagram_unlines fun entry => hdepicts.declares.isLabel _ _).iff_eq
  · have hs : t.steps[i]? = some t.steps[i] := List.getElem?_eq_getElem hi
    have hdepicts := depictsStep_stepLines h hs
    have hinputs : ∀ j ∈ t.steps[i].graphNode.inputs, j < t.nodes.length := by
      intro j hj
      rw [Trace.nodes, List.length_map]
      exact ((evaluate_hasShapeOf heval).input hs hj).1.trans hi
    refine ⟨_, _, stepGraph?_eq (Trace.getElem?_nodes_eq_some.mpr ⟨_, hs, rfl⟩) hinputs,
      fun ls' => ?_, hdepicts⟩
    exact (isDiagram_unlines fun entry => hdepicts.declares.isLabel _ _).iff_eq
  · have hnone : t.nodes[i]? = none := by
      rw [Trace.nodes, List.getElem?_map, List.getElem?_eq_none hi, Option.map_none]
    rw [stepGraph?, hnone]
    rfl

theorem diagrams_depict_tree_union :
    let db : Lookup := fun name => if name = "R" then some [.ofList [("a", .text "x")]] else none
    ∃ t, (run db "σ[a=x](R ⋈_\x7ba=b\x7d S) ∪ π[a](R)").value = .ok t ∧
      t.edges = [(0, 2), (1, 2), (2, 3), (4, 5), (3, 6), (5, 6)] ∧
      IsTree 7 t.edges ∧
      ∃ text ls, stepGraph? t.nodes 6 = some text ∧ (∀ ls', IsDiagram text ls' ↔ ls' = ls) ∧
        DepictsStep t 6 ls := by
  intro db
  obtain ⟨t, hrun, hlength, hedges⟩ :
      ∃ t, (run db "σ[a=x](R ⋈_\x7ba=b\x7d S) ∪ π[a](R)").value = .ok t ∧ t.steps.length = 7 ∧
        t.edges = [(0, 2), (1, 2), (2, 3), (4, 5), (3, 6), (5, 6)] := ⟨_, rfl, rfl, rfl⟩
  obtain ⟨htree, hgraphs, -⟩ := diagrams_depict_tree hrun
  exact ⟨t, hrun, hedges, hlength ▸ htree, (hgraphs 6 (by omega)).2⟩

end RelTrace
