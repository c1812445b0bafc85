import RelTrace.Proofs.Trace.Denotation

/-!
# The shape of traces

A trace is the tree in post-order. Every step except the last is an operand of exactly one later
step, and it lies one level below that step.

## Main definitions

* `Trace.HasShapeOf`: the places and depths that a tree gives to the steps of its trace.
-/

namespace RelTrace

namespace Expr

variable {e node : Expr} {depth d i j : Nat}

/-- The place of an operand is that of the last of its nodes, the root. -/
theorem exists_operand_of_mem_inputsAt {start : Nat} (hi : i ∈ e.inputsAt j)
    (hj : j + 1 = start + e.nodeCount) :
    ∃ before operand, (before, operand) ∈ e.operands ∧ i < j ∧
      i + 1 = start + before + operand.nodeCount := by
  cases e with
  | relation => cases hi
  | project _ operand _ | select _ operand _ =>
    have hpos := operand.nodeCount_pos
    simp only [nodeCount] at hj
    obtain rfl := List.mem_singleton.mp hi
    exact ⟨0, operand, List.mem_singleton_self _, by omega, by omega⟩
  | union l r _ | join _ l r _ =>
    have hposl := l.nodeCount_pos
    have hposr := r.nodeCount_pos
    simp only [nodeCount] at hj
    simp only [inputsAt, List.mem_cons, List.not_mem_nil, or_false] at hi
    rcases hi with rfl | rfl
    · exact ⟨0, l, List.mem_cons_self, by omega, by omega⟩
    · exact ⟨l.nodeCount, r, List.mem_cons_of_mem _ List.mem_cons_self, by omega, by omega⟩

/-- An operand of a node comes before it, one level below. -/
theorem exists_operand (hnode : (e.postorder depth)[j]? = some (d, node))
    (hi : i ∈ node.inputsAt j) :
    i < j ∧ ∃ operand, (e.postorder depth)[i]? = some (d + 1, operand) := by
  obtain ⟨d', start, hoccurs, rfl, hj⟩ := exists_occurs_of_getElem?_postorder hnode
  obtain ⟨before, operand, hmem, hlt, hplace⟩ := exists_operand_of_mem_inputsAt hi hj
  have hbelow := (occurs_of_mem_operands hmem).trans hoccurs
  refine ⟨hlt, operand, ?_⟩
  rw [Nat.add_assoc, Nat.add_comm d' 1]
  exact hbelow.getElem?_postorder depth hplace

theorem getElem?_stepsAt (db : Lookup) (depth index j : Nat) (e : Expr) :
    (e.stepsAt db depth index)[j]? =
      (e.postorder depth)[j]?.map fun (d, node) => node.stepAt db d (index + j) := by
  rw [stepsAt, List.getElem?_map, List.getElem?_zipIdx, Option.map_map]
  rfl

/-- Every place but that of the root is the place of one operand. -/
theorem count_inputs_stepsAt (db : Lookup) (depth index i : Nat) (e : Expr) :
    ((e.stepsAt db depth index).flatMap Step.inputs).count i =
      if index ≤ i ∧ i + 1 < index + e.nodeCount then 1 else 0 := by
  induction e generalizing depth index with
  | relation =>
    rw [if_neg (by simp only [nodeCount]; omega)]
    rfl
  | project _ e _ ih | select _ e _ ih =>
    have hpos := e.nodeCount_pos
    simp only [stepsAt_project, stepsAt_select, List.flatMap_append, List.count_append, ih,
      List.flatMap_singleton, stepAt, inputsAt, nodeCount, List.count_singleton, beq_iff_eq]
    grind
  | union l r _ ihl ihr | join _ l r _ ihl ihr =>
    have hposl := l.nodeCount_pos
    have hposr := r.nodeCount_pos
    simp only [stepsAt_union, stepsAt_join, List.flatMap_append, List.count_append, ihl, ihr,
      List.flatMap_singleton, stepAt, inputsAt_union, inputsAt_join, nodeCount, List.count_cons,
      List.count_nil, beq_iff_eq]
    grind

variable {db : Lookup} {s : Step}

theorem stepsAt_eq_some (h : (e.stepsAt db depth 0)[j]? = some s) :
    ∃ node, (e.postorder depth)[j]? = some (s.depth, node) ∧ s = node.stepAt db s.depth j := by
  rw [getElem?_stepsAt, Option.map_eq_some_iff] at h
  obtain ⟨⟨d, node⟩, hnode, rfl⟩ := h
  rw [Nat.zero_add]
  exact ⟨node, hnode, rfl⟩

theorem exists_input (h : (e.stepsAt db depth 0)[j]? = some s) (hi : i ∈ s.inputs) :
    i < j ∧ ∃ operand, (e.stepsAt db depth 0)[i]? = some operand ∧
      operand.depth = s.depth + 1 := by
  obtain ⟨node, hnode, hstep⟩ := stepsAt_eq_some h
  rw [hstep] at hi
  obtain ⟨hlt, operand, hoperand⟩ := exists_operand hnode hi
  refine ⟨hlt, operand.stepAt db (s.depth + 1) (0 + i), ?_, rfl⟩
  rw [getElem?_stepsAt, hoperand, Option.map_some]

theorem exists_later_use (db : Lookup) (depth : Nat) (hi : i + 1 < e.nodeCount) :
    ∃ j s, i < j ∧ (e.stepsAt db depth 0)[j]? = some s ∧ i ∈ s.inputs := by
  have hcount := count_inputs_stepsAt db depth 0 i e
  rw [if_pos (by omega)] at hcount
  have hmem : i ∈ (e.stepsAt db depth 0).flatMap Step.inputs := by
    apply List.count_pos_iff.mp
    omega
  obtain ⟨s, hs, his⟩ := List.mem_flatMap.mp hmem
  obtain ⟨j, hj⟩ := List.mem_iff_getElem?.mp hs
  exact ⟨j, s, (exists_input hj his).1, hj, his⟩

end Expr

/-- What the tree alone decides of its trace. -/
structure Trace.HasShapeOf (t : Trace) (e : Expr) : Prop where
  length_steps : t.steps.length = e.nodeCount
  depth_result : t.result.depth = 0
  /-- The steps are the nodes in post-order. All nodes below one come before it. -/
  node : ∀ {j : Nat} {s : Step}, t.steps[j]? = some s →
    ∃ node, (e.postorder 0)[j]? = some (s.depth, node) ∧ s.operator = node.operator ∧
      s.span = node.span ∧ node.nodeCount ≤ j + 1 ∧ s.inputs = node.inputsAt j
  input : ∀ {i j : Nat} {s : Step}, t.steps[j]? = some s → i ∈ s.inputs →
    i < j ∧ ∃ operand, t.steps[i]? = some operand ∧ operand.depth = s.depth + 1
  used_once : ∀ i, i + 1 < t.steps.length → (t.steps.flatMap Step.inputs).count i = 1
  used_later : ∀ i, i + 1 < t.steps.length → ∃ j s, i < j ∧ t.steps[j]? = some s ∧ i ∈ s.inputs

/-- The trace of a tree has the shape of the tree. -/
theorem evaluate_hasShapeOf {db : Lookup} {e : Expr} {t : Trace}
    (h : (e.evaluate db).value = .ok t) : t.HasShapeOf e := by
  have hresult : t.result.depth = 0 := by rw [Expr.eq_expectedTrace h]; rfl
  have hsteps := Expr.steps_of_evaluate h
  have hlength : t.steps.length = e.nodeCount := by rw [hsteps, Expr.length_stepsAt]
  refine ⟨hlength, hresult, ?_, ?_, ?_, ?_⟩
  · intro j s hs
    obtain ⟨node, hnode, hstep⟩ := Expr.stepsAt_eq_some (hsteps ▸ hs)
    obtain ⟨-, start, -, -, hplace⟩ := Expr.exists_occurs_of_getElem?_postorder hnode
    refine ⟨node, hnode, ?_, ?_, by omega, ?_⟩ <;> rw [hstep] <;> rfl
  · intro i j s hs hi
    rw [hsteps] at hs ⊢
    exact Expr.exists_input hs hi
  · intro i hi
    rw [hsteps, Expr.count_inputs_stepsAt, if_pos (by omega)]
  · intro i hi
    rw [hsteps]
    exact Expr.exists_later_use db 0 (by omega)

theorem evaluate_hasShapeOf_union :
    let db : Lookup := fun name => if name = "R" then some [.ofList [("a", .text "x")]] else none
    let right : Expr := .project ["a"] (.relation "S" ⟨7, 8⟩) ⟨4, 9⟩
    let e : Expr := .select "a=x" (.union (.relation "R" ⟨2, 3⟩) right ⟨2, 9⟩) ⟨0, 10⟩
    ∃ t, (e.evaluate db).value = .ok t ∧ t.HasShapeOf e ∧
      t.steps.map Step.inputs = [[], [], [1], [0, 2], [3]] := by
  intro db right e
  obtain ⟨t, h, hinputs⟩ : ∃ t, (e.evaluate db).value = .ok t ∧
      t.steps.map Step.inputs = [[], [], [1], [0, 2], [3]] := ⟨_, rfl, rfl⟩
  exact ⟨t, h, evaluate_hasShapeOf h, hinputs⟩

end RelTrace
