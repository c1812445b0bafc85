import RelTrace.Proofs.Trace.Denotation

/-!
# Evaluation refines the meaning

The trace of a tree holds the trace of every subtree as one block. The block tells of its
surroundings only by how deep its root lies and by how many steps come before it.

## Main definitions

* `Step.shift`: a step deeper in a tree and later in a trace.
-/

namespace RelTrace

/-- The step of the same node when its tree stands deeper and its trace begins later. -/
def Step.shift (depth index : Nat) (s : Step) : Step :=
  { s with depth := s.depth + depth, inputs := s.inputs.map (· + index) }

namespace Expr

variable {db : Lookup} {s e : Expr}

theorem inputsAt_shift {place : Nat} (h : e.nodeCount ≤ place + 1) (index : Nat) :
    (e.inputsAt place).map (· + index) = e.inputsAt (place + index) := by
  cases e with
  | relation => rfl
  | project _ e _ | select _ e _ =>
    have hpos := e.nodeCount_pos
    simp only [nodeCount] at h
    simp only [inputsAt, List.map_cons, List.map_nil, List.cons.injEq, and_true]
    omega
  | union l r _ | join _ l r _ =>
    have hpos := l.nodeCount_pos
    simp only [nodeCount] at h
    simp only [inputsAt, List.map_cons, List.map_nil, List.cons.injEq, and_true]
    omega

theorem stepAt_shift {place : Nat} (h : e.nodeCount ≤ place + 1) (db : Lookup)
    (d depth index : Nat) :
    (e.stepAt db d place).shift depth index = e.stepAt db (d + depth) (place + index) := by
  simp only [Step.shift, stepAt, inputsAt_shift h]

theorem stepsAt_shift (db : Lookup) (d place depth index : Nat) (e : Expr) :
    (e.stepsAt db d place).map (Step.shift depth index) =
      e.stepsAt db (d + depth) (place + index) := by
  induction e generalizing d place with
  | relation => rfl
  | project _ e _ ih | select _ e _ ih =>
    simp only [stepsAt_project, stepsAt_select, List.map_append, ih, List.map_singleton]
    rw [stepAt_shift (by simp only [nodeCount]; omega), Nat.add_right_comm d 1,
      Nat.add_right_comm place]
  | union l r _ ihl ihr | join _ l r _ ihl ihr =>
    simp only [stepsAt_union, stepsAt_join, List.map_append, ihl, ihr, List.map_singleton]
    rw [stepAt_shift (by simp only [nodeCount]; omega), Nat.add_right_comm d 1,
      Nat.add_right_comm place index, Nat.add_right_comm (place + l.nodeCount) index]

/-- The steps of a subtree stand together. -/
theorem Occurs.stepsAt {d i : Nat} (h : Occurs s d i e) (db : Lookup) (depth index : Nat) :
    BlockAt i (s.stepsAt db (depth + d) (index + i)) (e.stepsAt db depth index) :=
  ((h.postorder depth).zipIdx index).map _

theorem Occurs.denote {d i : Nat} {rows : Relation} (h : Occurs s d i e)
    (hmeans : e.denote db = .ok rows) : ∃ rows, s.denote db = .ok rows := by
  obtain ⟨earlier, hroot, -⟩ := exists_postorder_eq_concat (0 + d) s
  obtain ⟨before, after, hsplit, -⟩ := h.postorder 0
  have hmem : (0 + d, s) ∈ e.postorder 0 := by rw [hsplit, hroot]; simp
  exact denote_of_mem_postorder hmeans hmem

/-- A subtree has a trace of its own, and its steps in the trace of the tree are those, shifted. -/
theorem Occurs.evaluate {d i : Nat} {t : Trace} (h : Occurs s d i e)
    (ht : (e.evaluate db).value = .ok t) :
    ∃ u, (s.evaluate db).value = .ok u ∧ BlockAt i (u.steps.map (Step.shift d i)) t.steps := by
  obtain ⟨rows, hrows⟩ := h.denote (denote_of_evaluate ht)
  refine ⟨_, evaluate_of_denote hrows, ?_⟩
  rw [steps_expectedTrace, stepsAt_shift, steps_of_evaluate ht]
  exact h.stepsAt db 0 0

/-- Each step says what its node is and means. -/
theorem stepsAt_record {rows : Relation} (h : e.denote db = .ok rows) (depth index : Nat) :
    ((e.stepsAt db depth index).map fun s =>
        (s.depth, s.operator, s.description, s.span,
          (.ok s.rows : Except MalformedJoin Relation))) =
      (e.postorder depth).map fun (d, node) =>
        (d, node.operator, node.description, node.span, node.denote db) := by
  conv => rhs; rw [← List.zipIdx_map_fst index (e.postorder depth)]
  rw [stepsAt, List.map_map, List.map_map]
  refine List.map_congr_left ?_
  rintro ⟨⟨d, node⟩, i⟩ hmem
  obtain ⟨rows, hrows⟩ := denote_of_mem_postorder h (List.fst_mem_of_mem_zipIdx hmem)
  simp only [Function.comp_apply, stepAt_eq hrows]
  exact hrows ▸ rfl

end Expr

/-- Evaluation ends with the meaning of the tree. Its steps are the nodes in post-order with their
meanings, and those of a subtree are the trace of the subtree, moved to where its nodes stand. -/
theorem evaluate_refines_denote {db : Lookup} {e : Expr} {t : Trace}
    (h : (e.evaluate db).value = .ok t) :
    e.denote db = .ok t.result.rows ∧
      (t.steps.map fun s =>
          (s.depth, s.operator, s.description, s.span,
            (.ok s.rows : Except MalformedJoin Relation))) =
        ((e.postorder 0).map fun (depth, node) =>
          (depth, node.operator, node.description, node.span, node.denote db)) ∧
      ∀ {s : Expr} {d i : Nat}, s.Occurs d i e →
        BlockAt i (s.postorder d) (e.postorder 0) ∧
          ∃ u, (s.evaluate db).value = .ok u ∧
            BlockAt i (u.steps.map (Step.shift d i)) t.steps := by
  have hmeans := Expr.denote_of_evaluate h
  refine ⟨hmeans, ?_, fun hoccurs => ⟨?_, hoccurs.evaluate h⟩⟩
  · rw [Expr.steps_of_evaluate h]
    exact Expr.stepsAt_record hmeans 0 0
  · simpa using hoccurs.postorder 0

theorem evaluate_refines_denote_join :
    let db : Lookup := fun name =>
      if name = "R" then some [.ofList [("a", .text "x")], .ofList [("a", .text "y")]] else none
    let right : Expr := .select "a=x" (.project ["a"] (.relation "R" ⟨6, 7⟩) ⟨6, 9⟩) ⟨5, 10⟩
    let e : Expr := .join "a = a" (.relation "R" ⟨0, 1⟩) right ⟨0, 10⟩
    ∃ t, (e.evaluate db).value = .ok t ∧
      t.result.rows = [.ofList [("a", .text "x")]] ∧
      e.denote db = .ok t.result.rows ∧
      ∃ u, (right.evaluate db).value = .ok u ∧
        BlockAt 1 (u.steps.map (Step.shift 1 1)) t.steps := by
  intro db right e
  obtain ⟨t, h⟩ : ∃ t, (e.evaluate db).value = .ok t := ⟨_, rfl⟩
  obtain ⟨hmeans, -, hblock⟩ := evaluate_refines_denote h
  have hrows : t.result.rows = [.ofList [("a", .text "x")]] := by
    have : e.denote db = .ok [.ofList [("a", .text "x")]] := by rfl
    exact Except.ok.inj (hmeans.symm.trans this)
  exact ⟨t, h, hrows, hmeans, (hblock (.joinRight .here)).2⟩

end RelTrace
