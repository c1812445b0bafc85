import RelTrace.Proofs.Query.Postorder
import RelTrace.Trace.Evaluate

/-!
# The meaning of trees

A tree has a meaning that mentions neither steps nor places: the rows of a node come from the rows
of its operands. Evaluation runs through the nodes in post-order and records the meaning of each.
The trace of a subtree therefore depends on its surroundings only by the depth of its root and the
place of its first step.

## Main definitions

* `Expr.denote`: the rows of a tree, or the malformed join that leaves it without any.
* `Expr.traceAt`: the evaluation of a subtree without its notes.
* `Expr.stepsAt`: the steps that the nodes of a subtree leave, given by its post-order.
-/

namespace RelTrace

namespace Evaluation

variable {α β : Type}

@[simp] theorem value_run_bind (x : Evaluation α) (f : α → Evaluation β) :
    (x >>= f).run.value = x.run.value.bind fun a => (f a).run.value := by
  rw [ExceptT.run_bind, Logged.value_bind]
  cases x.run.value <;> rfl

@[simp] theorem value_run_lift (x : Logged α) :
    (liftM x : Evaluation α).run.value = .ok x.value := rfl

@[simp] theorem value_run_lookUp (db : Lookup) (name : String) :
    (lookUp db name).run.value = .ok ((db name).getD []) := by
  unfold lookUp
  cases db name <;> rfl

end Evaluation

open Evaluation

namespace Expr

/-- The rows of a tree. Operands come before operators and the left one first, so that the error is
the first one in post-order. -/
def denote (db : Lookup) : Expr → Except MalformedJoin Relation
  | relation name _ => .ok ((db name).getD [])
  | project attributes e _ => do
    let rows ← e.denote db
    return rows.project attributes
  | select condition e _ => do
    let rows ← e.denote db
    return rows.select (Condition.read condition)
  | union l r _ => do
    let left ← l.denote db
    let right ← r.denote db
    return left.union right
  | join condition l r span => do
    let left ← l.denote db
    let right ← r.denote db
    match joinAttributes? condition with
    | some (leftName, rightName) => return left.join right leftName rightName
    | none => throw ⟨condition, span⟩

section Meaning

variable {db : Lookup} {e l r : Expr} {rows left right : Relation}

theorem denote_project (h : e.denote db = .ok rows) (attributes : List String) (span : Span) :
    (project attributes e span).denote db = .ok (rows.project attributes) := by
  simp only [denote, h]
  rfl

theorem denote_select (h : e.denote db = .ok rows) (condition : String) (span : Span) :
    (select condition e span).denote db = .ok (rows.select (Condition.read condition)) := by
  simp only [denote, h]
  rfl

theorem denote_union (hl : l.denote db = .ok left) (hr : r.denote db = .ok right) (span : Span) :
    (union l r span).denote db = .ok (left.union right) := by
  simp only [denote, hl, hr]
  rfl

theorem denote_join {condition : String} {names : String × String} (hl : l.denote db = .ok left)
    (hr : r.denote db = .ok right) (hnames : joinAttributes? condition = some names)
    (span : Span) :
    (join condition l r span).denote db = .ok (left.join right names.1 names.2) := by
  simp only [denote, hl, hr, hnames]
  rfl

end Meaning

/-- What a step says of the node it evaluates. -/
def description : Expr → String
  | relation name _ => "Access base relation: " ++ name
  | project attributes _ _ => "Project attributes: [" ++ ", ".intercalate attributes ++ "]"
  | select condition _ _ => "Filter rows where: " ++ condition
  | union _ _ _ => "Union of two relations"
  | join condition _ _ _ => "Join on: " ++ condition

/-- The places of the operands of a node that has the given place itself. The right operand comes
directly before the node, and the left one before all nodes of the right one. -/
def inputsAt (index : Nat) : Expr → List Nat
  | relation _ _ => []
  | project _ _ _ | select _ _ _ => [index - 1]
  | union _ r _ | join _ _ r _ => [index - 1 - r.nodeCount, index - 1]

/-- The step of a node that has a meaning. -/
def stepAt (db : Lookup) (depth index : Nat) (e : Expr) : Step where
  operator := e.operator
  description := e.description
  rows := (e.denote db).toOption.getD []
  span := e.span
  depth := depth
  inputs := e.inputsAt index

/-- The steps of a subtree, one for each node in post-order. -/
def stepsAt (db : Lookup) (depth index : Nat) (e : Expr) : List Step :=
  ((e.postorder depth).zipIdx index).map fun ((d, node), i) => node.stepAt db d i

/-- The trace with those steps. -/
def expectedTrace (db : Lookup) (depth index : Nat) (e : Expr) : Trace where
  earlier := (e.stepsAt db depth index).dropLast
  result := e.stepAt db depth (index + e.nodeCount - 1)

/-- The evaluation of a subtree without its notes. -/
def traceAt (db : Lookup) (depth index : Nat) (e : Expr) : Except MalformedJoin Trace :=
  (e.evaluateAt db depth index).run.value

theorem inputsAt_union (l r : Expr) (span : Span) (index : Nat) :
    (union l r span).inputsAt (index + r.nodeCount) = [index - 1, index + r.nodeCount - 1] := by
  simp only [inputsAt, List.cons.injEq, and_true]
  omega

theorem inputsAt_join (condition : String) (l r : Expr) (span : Span) (index : Nat) :
    (join condition l r span).inputsAt (index + r.nodeCount) =
      [index - 1, index + r.nodeCount - 1] := by
  simp only [inputsAt, List.cons.injEq, and_true]
  omega

section Steps

variable (db : Lookup) (depth index : Nat)

@[simp] theorem length_stepsAt (e : Expr) : (e.stepsAt db depth index).length = e.nodeCount := by
  simp [stepsAt]

theorem stepsAt_project (attributes : List String) (e : Expr) (span : Span) :
    (project attributes e span).stepsAt db depth index =
      e.stepsAt db (depth + 1) index ++
        [(project attributes e span).stepAt db depth (index + e.nodeCount)] := by
  simp [stepsAt, postorder, List.zipIdx_append]

theorem stepsAt_select (condition : String) (e : Expr) (span : Span) :
    (select condition e span).stepsAt db depth index =
      e.stepsAt db (depth + 1) index ++
        [(select condition e span).stepAt db depth (index + e.nodeCount)] := by
  simp [stepsAt, postorder, List.zipIdx_append]

theorem stepsAt_union (l r : Expr) (span : Span) :
    (union l r span).stepsAt db depth index =
      l.stepsAt db (depth + 1) index ++ r.stepsAt db (depth + 1) (index + l.nodeCount) ++
        [(union l r span).stepAt db depth (index + l.nodeCount + r.nodeCount)] := by
  simp [stepsAt, postorder, List.zipIdx_append, Nat.add_assoc]

theorem stepsAt_join (condition : String) (l r : Expr) (span : Span) :
    (join condition l r span).stepsAt db depth index =
      l.stepsAt db (depth + 1) index ++ r.stepsAt db (depth + 1) (index + l.nodeCount) ++
        [(join condition l r span).stepAt db depth (index + l.nodeCount + r.nodeCount)] := by
  simp [stepsAt, postorder, List.zipIdx_append, Nat.add_assoc]

/-- The root comes last. -/
@[simp] theorem steps_expectedTrace (e : Expr) :
    (e.expectedTrace db depth index).steps = e.stepsAt db depth index := by
  obtain ⟨earlier, h, hlen⟩ := exists_postorder_eq_concat depth e
  have hplace : index + earlier.length = index + e.nodeCount - 1 := by omega
  simp [Trace.steps, expectedTrace, stepsAt, h, List.zipIdx_append, hplace]

theorem add_length_earlier_expectedTrace (e : Expr) :
    index + (e.expectedTrace db depth index).earlier.length = index + e.nodeCount - 1 := by
  have hpos := e.nodeCount_pos
  simp only [expectedTrace, List.length_dropLast, length_stepsAt]
  omega

/-- The place after the trace. -/
theorem nodeCount_sub_one_add_one (e : Expr) :
    index + e.nodeCount - 1 + 1 = index + e.nodeCount := by
  have hpos := e.nodeCount_pos
  omega

variable {db depth index} {e : Expr} {rows : Relation}

theorem stepAt_eq (h : e.denote db = .ok rows) :
    e.stepAt db depth index =
      ⟨e.operator, e.description, rows, e.span, depth, e.inputsAt index⟩ := by
  rw [stepAt, h]
  rfl

theorem rows_expectedTrace (h : e.denote db = .ok rows) :
    (e.expectedTrace db depth index).result.rows = rows := by
  rw [expectedTrace, stepAt_eq h]

theorem expectedTrace_eq {earlier : List Step} {place : Nat}
    (hsteps : e.stepsAt db depth index = earlier ++ [e.stepAt db depth place])
    (h : e.denote db = .ok rows) :
    e.expectedTrace db depth index =
      ⟨earlier, ⟨e.operator, e.description, rows, e.span, depth, e.inputsAt place⟩⟩ := by
  rw [← steps_expectedTrace, Trace.steps] at hsteps
  obtain ⟨hearlier, hresult⟩ := List.append_inj' hsteps rfl
  rw [← stepAt_eq h, ← hearlier, ← List.singleton_inj.mp hresult]

end Steps

section Evaluation

variable (db : Lookup) (depth index : Nat)

theorem traceAt_project (attributes : List String) (e : Expr) (span : Span) :
    (project attributes e span).traceAt db depth index =
      (e.traceAt db (depth + 1) index).map fun input =>
        ⟨input.steps, ⟨.projection, (project attributes e span).description,
          input.result.rows.project attributes, span, depth, [index + input.earlier.length]⟩⟩ := by
  simp only [traceAt, evaluateAt, value_run_bind]
  cases (e.evaluateAt db (depth + 1) index).run.value <;> rfl

theorem traceAt_select (condition : String) (e : Expr) (span : Span) :
    (select condition e span).traceAt db depth index =
      (e.traceAt db (depth + 1) index).map fun input =>
        ⟨input.steps, ⟨.selection, (select condition e span).description,
          input.result.rows.select (Condition.read condition), span, depth,
          [index + input.earlier.length]⟩⟩ := by
  simp only [traceAt, evaluateAt, value_run_bind, value_run_lift, Condition.value_readLogged]
  cases (e.evaluateAt db (depth + 1) index).run.value <;> rfl

theorem traceAt_union (l r : Expr) (span : Span) :
    (union l r span).traceAt db depth index =
      (l.traceAt db (depth + 1) index).bind fun left =>
        (r.traceAt db (depth + 1) (index + left.earlier.length + 1)).map fun right =>
          ⟨left.steps ++ right.steps, ⟨.union, (union l r span).description,
            left.result.rows.union right.result.rows, span, depth,
            [index + left.earlier.length,
              index + left.earlier.length + 1 + right.earlier.length]⟩⟩ := by
  simp only [traceAt, evaluateAt, value_run_bind]
  rfl

theorem traceAt_join (condition : String) (l r : Expr) (span : Span) :
    (join condition l r span).traceAt db depth index =
      (l.traceAt db (depth + 1) index).bind fun left =>
        (r.traceAt db (depth + 1) (index + left.earlier.length + 1)).bind fun right =>
          match joinAttributes? condition with
          | some (leftName, rightName) =>
            .ok ⟨left.steps ++ right.steps, ⟨.join, (join condition l r span).description,
              left.result.rows.join right.result.rows leftName rightName, span, depth,
              [index + left.earlier.length,
                index + left.earlier.length + 1 + right.earlier.length]⟩⟩
          | none => .error ⟨condition, span⟩ := by
  simp only [traceAt, evaluateAt, value_run_bind, readJoin]
  cases joinAttributes? condition <;> rfl

/-- Evaluation has the outcome that the tree means, and its steps are those of the post-order. -/
theorem traceAt_eq (e : Expr) :
    e.traceAt db depth index = (e.denote db).map fun _ => e.expectedTrace db depth index := by
  induction e generalizing depth index with
  | relation name span =>
    simp only [traceAt, evaluateAt, value_run_bind, value_run_lookUp]
    rfl
  | project attributes e span ih =>
    rw [traceAt_project, ih]
    cases h : e.denote db with
    | error => simp only [denote, h]; rfl
    | ok rows =>
      have hmeans := denote_project h attributes span
      simp only [hmeans, Except.map, expectedTrace_eq (stepsAt_project ..) hmeans,
        steps_expectedTrace, rows_expectedTrace h, add_length_earlier_expectedTrace]
      rfl
  | select condition e span ih =>
    rw [traceAt_select, ih]
    cases h : e.denote db with
    | error => simp only [denote, h]; rfl
    | ok rows =>
      have hmeans := denote_select h condition span
      simp only [hmeans, Except.map, expectedTrace_eq (stepsAt_select ..) hmeans,
        steps_expectedTrace, rows_expectedTrace h, add_length_earlier_expectedTrace]
      rfl
  | union l r span ihl ihr =>
    rw [traceAt_union, ihl]
    cases hl : l.denote db with
    | error => simp only [denote, hl]; rfl
    | ok left =>
      cases hr : r.denote db with
      | error => simp only [ihr, denote, hl, hr]; rfl
      | ok right =>
        have hmeans := denote_union hl hr span
        -- The right operand begins at the place after the left one, as in the post-order.
        simp only [ihr, hr, hmeans, Except.map, Except.bind,
          expectedTrace_eq (stepsAt_union ..) hmeans, inputsAt_union, steps_expectedTrace,
          rows_expectedTrace hl, rows_expectedTrace hr, add_length_earlier_expectedTrace,
          nodeCount_sub_one_add_one]
        rfl
  | join condition l r span ihl ihr =>
    rw [traceAt_join, ihl]
    cases hl : l.denote db with
    | error => simp only [denote, hl]; rfl
    | ok left =>
      cases hr : r.denote db with
      | error => simp only [ihr, denote, hl, hr]; rfl
      | ok right =>
        cases hnames : joinAttributes? condition with
        | none =>
          simp only [ihr, denote, hl, hr, hnames]
          rfl
        | some names =>
          have hmeans := denote_join hl hr hnames span
          simp only [ihr, hr, hmeans, Except.map, Except.bind,
            expectedTrace_eq (stepsAt_join ..) hmeans, inputsAt_join, steps_expectedTrace,
            rows_expectedTrace hl, rows_expectedTrace hr, add_length_earlier_expectedTrace,
            nodeCount_sub_one_add_one]
          rfl

end Evaluation

variable {db : Lookup} {e : Expr}

theorem evaluate_of_denote {rows : Relation} (h : e.denote db = .ok rows) :
    (e.evaluate db).value = .ok (e.expectedTrace db 0 0) := by
  change e.traceAt db 0 0 = _
  rw [traceAt_eq, h, Except.map]

theorem denote_of_evaluate {t : Trace} (h : (e.evaluate db).value = .ok t) :
    e.denote db = .ok t.result.rows := by
  change e.traceAt db 0 0 = _ at h
  rw [traceAt_eq] at h
  cases hmeans : e.denote db with
  | error => rw [hmeans] at h; cases h
  | ok rows =>
    rw [hmeans] at h
    cases h
    rw [rows_expectedTrace hmeans]

theorem eq_expectedTrace {t : Trace} (h : (e.evaluate db).value = .ok t) :
    t = e.expectedTrace db 0 0 := by
  have hexpected := evaluate_of_denote (denote_of_evaluate h)
  rw [h] at hexpected
  exact Except.ok.inj hexpected

theorem steps_of_evaluate {t : Trace} (h : (e.evaluate db).value = .ok t) :
    t.steps = e.stepsAt db 0 0 := by
  rw [eq_expectedTrace h, steps_expectedTrace]

/-- Every node below a tree with a meaning has one. -/
theorem denote_of_mem_postorder {rows : Relation} {depth : Nat} {node : Nat × Expr}
    (h : e.denote db = .ok rows) (hmem : node ∈ e.postorder depth) :
    ∃ rows, node.2.denote db = .ok rows := by
  induction e generalizing rows depth with
  | relation =>
    obtain rfl := List.mem_singleton.mp hmem
    exact ⟨rows, h⟩
  | project _ e _ ih | select _ e _ ih =>
    rcases List.mem_append.mp hmem with hmem | hmem
    · cases he : e.denote db with
      | error => simp only [denote, he] at h; cases h
      | ok => exact ih he hmem
    · obtain rfl := List.mem_singleton.mp hmem
      exact ⟨rows, h⟩
  | union l r _ ihl ihr | join _ l r _ ihl ihr =>
    rcases List.mem_append.mp hmem with hmem | hmem
    · cases hl : l.denote db with
      | error => simp only [denote, hl] at h; cases h
      | ok =>
        cases hr : r.denote db with
        | error => simp only [denote, hl, hr] at h; cases h
        | ok =>
          rcases List.mem_append.mp hmem with hmem | hmem
          · exact ihl hl hmem
          · exact ihr hr hmem
    · obtain rfl := List.mem_singleton.mp hmem
      exact ⟨rows, h⟩

end Expr

/-- A query has the trace of its tree. -/
theorem run_eq_ok_iff {db : Lookup} {query : String} {t : Trace} :
    (run db query).value = .ok t ↔
      ∃ e, (compile query).value = .ok e ∧ (e.evaluate db).value = .ok t := by
  simp only [run, Logged.value_bind]
  cases (compile query).value with
  | error => simp
  | ok e =>
    simp only [runExpr, Logged.value_bind, Logged.value_pure]
    cases h : (e.evaluate db).value with
    | error err =>
      change Except.error (QueryError.failed err) = .ok t ↔ _
      simp [h]
    | ok u =>
      change Except.ok u = .ok t ↔ _
      simp [h]

end RelTrace
