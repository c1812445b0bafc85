import RelTrace.Trace.Evaluate

/-!
# Evaluation on one list

An evaluation that keeps all steps on one list. A node finds the rows of its operands by their
places, puts its own step at the end and returns the place. It leaves the steps before its subtree
as they were and adds those of the subtree, every place that it looks at holds a step, and its notes
and its errors are those of the evaluation that hands over traces.

## Main definitions

* `Visit`: evaluations with the list of all steps so far.
* `Expr.visit`: evaluates a subtree.
* `Expr.execute`: the steps of a tree.
-/

namespace RelTrace

/-- Why an evaluation on one list stops. -/
inductive Halt where
  | malformed (e : MalformedJoin)
  /-- There is no step at a place. -/
  | missing (index : Nat)

/-- An evaluation that keeps the steps so far. -/
abbrev Visit := StateT (List Step) (ExceptT Halt Logged)

/-- A part of an evaluation that needs no steps. -/
def Evaluation.within {α : Type} (x : Evaluation α) : ExceptT Halt Logged α :=
  ExceptT.mk ⟨x.run.value.mapError .malformed, x.run.notes⟩

namespace Visit

instance : MonadLift Evaluation Visit where
  monadLift x := StateT.lift x.within

/-- The rows of the step at a place. -/
def rowsAt (index : Nat) : Visit Relation := do
  match (← get)[index]? with
  | some s => return s.rows
  | none => throw (.missing index)

/-- Puts a step at the end and returns its place. -/
def push (s : Step) : Visit Nat := do
  Logged.note .debug (s.summary (← get).length)
  modify (· ++ [s])
  return (← get).length - 1

end Visit

open Evaluation Visit

/-- Evaluates a subtree whose root has the given depth and returns the place of its step. -/
def Expr.visit (db : Lookup) (depth : Nat) : Expr → Visit Nat
  | .relation name span => do
    let rows ← lookUp db name
    push ⟨.relation, "Access base relation: " ++ name, rows, span, depth, []⟩
  | .project attributes e span => do
    let i ← e.visit db (depth + 1)
    let rows := (← rowsAt i).project attributes
    let description := "Project attributes: [" ++ ", ".intercalate attributes ++ "]"
    push ⟨.projection, description, rows, span, depth, [i]⟩
  | .select condition e span => do
    let i ← e.visit db (depth + 1)
    let rows := (← rowsAt i).select (← Condition.readLogged condition)
    push ⟨.selection, "Filter rows where: " ++ condition, rows, span, depth, [i]⟩
  | .union l r span => do
    let i ← l.visit db (depth + 1)
    let j ← r.visit db (depth + 1)
    let rows := (← rowsAt i).union (← rowsAt j)
    push ⟨.union, "Union of two relations", rows, span, depth, [i, j]⟩
  | .join condition l r span => do
    let i ← l.visit db (depth + 1)
    let j ← r.visit db (depth + 1)
    let (leftName, rightName) ← readJoin condition span
    let rows := (← rowsAt i).join (← rowsAt j) leftName rightName
    push ⟨.join, "Join on: " ++ condition, rows, span, depth, [i, j]⟩

/-- The steps of a tree. -/
def Expr.execute (db : Lookup) (e : Expr) : Logged (Except Halt (List Step)) := do
  return (← (e.visit db 0).run [] |>.run).map Prod.snd

/-! ## What a visit adds -/

namespace Evaluation

variable {α β : Type}

theorem within_bind (x : Evaluation α) (f : α → Evaluation β) :
    within (x >>= f) = within x >>= fun a => within (f a) := by
  obtain ⟨value, notes⟩ := x
  cases value <;> rfl

end Evaluation

/-- The place of the last step of a trace and all steps, if it is put behind some. -/
def Trace.behind (t : Trace) (steps : List Step) : Nat × List Step :=
  (steps.length + t.earlier.length, steps ++ t.steps)

namespace Visit

variable {α : Type} {steps earlier all : List Step} {s : Step} {index : Nat}

theorem run_lift (x : Evaluation α) :
    (liftM x : Visit α).run steps = (fun a => (a, steps)) <$> within x := rfl

theorem run_lift_logged (x : Logged α) :
    (liftM x : Visit α).run steps = (fun a => (a, steps)) <$> within (liftM x) := rfl

theorem run_rowsAt (h : steps[index]? = some s) :
    (rowsAt index).run steps = pure (s.rows, steps) := by
  simp [rowsAt, h]

theorem run_push (s : Step) (steps : List Step) :
    (push s).run steps =
      ExceptT.mk ⟨.ok (steps.length, steps ++ [s]), [⟨.debug, s.summary steps.length⟩]⟩ := by
  have hrun : (push s).run steps = ExceptT.mk
      ⟨.ok ((steps ++ [s]).length - 1, steps ++ [s]), [⟨.debug, s.summary steps.length⟩]⟩ := rfl
  rw [hrun, List.length_append, List.length_singleton, Nat.add_sub_cancel]

/-- A step at the end is the last one of its trace. -/
theorem run_push_eq_record (hall : all = steps ++ earlier) (hindex : all.length = index) :
    (push s).run all = (fun t => t.behind steps) <$> within (record earlier index s) := by
  have hrecord : (fun t => t.behind steps) <$> within (record earlier index s) = ExceptT.mk
      ⟨.ok (steps.length + earlier.length, steps ++ (earlier ++ [s])),
        [⟨.debug, s.summary index⟩]⟩ := rfl
  rw [run_push, hrecord, hindex, hall, List.append_assoc, ← List.length_append, ← hall, hindex]

end Visit

section Places

variable (t left right : Trace) (steps later : List Step)

theorem length_behind : (steps ++ t.steps).length = steps.length + t.earlier.length + 1 := by
  simp [Trace.steps, Nat.add_assoc]

/-- The last step of a trace stands at the place that its visit returns. -/
theorem getElem?_behind :
    (steps ++ t.steps ++ later)[steps.length + t.earlier.length]? = some t.result := by
  simp [Trace.steps]

theorem run_rowsAt_last :
    (rowsAt (steps.length + t.earlier.length)).run (steps ++ t.steps) =
      pure (t.result.rows, steps ++ t.steps) :=
  run_rowsAt (by simpa using getElem?_behind t steps [])

/-- The rows of both operands are found. -/
theorem run_rowsAt_operands {α : Type} (f : Relation → Relation → Visit α) :
    (do
      let rows ← rowsAt (steps.length + left.earlier.length)
      let rows' ← rowsAt (steps.length + left.earlier.length + 1 + right.earlier.length)
      f rows rows').run (steps ++ left.steps ++ right.steps) =
    (f left.result.rows right.result.rows).run (steps ++ left.steps ++ right.steps) := by
  rw [StateT.run_bind, run_rowsAt (getElem?_behind left steps right.steps), pure_bind,
    StateT.run_bind, ← length_behind, run_rowsAt_last, pure_bind]

end Places

/-- Two operands are visited one after the other, and the right one begins where the left one
ends. -/
theorem Expr.run_operands {db : Lookup} {depth : Nat} {l r : Expr} {steps : List Step}
    (hl : ∀ steps, (l.visit db depth).run steps =
      (fun t => t.behind steps) <$> within (l.evaluateAt db depth steps.length))
    (hr : ∀ steps, (r.visit db depth).run steps =
      (fun t => t.behind steps) <$> within (r.evaluateAt db depth steps.length))
    {f : Nat → Nat → Visit Nat} {g : Trace → Trace → Evaluation Trace}
    (hf : ∀ left right, (f (steps.length + left.earlier.length)
        (steps.length + left.earlier.length + 1 + right.earlier.length)).run
          (steps ++ left.steps ++ right.steps) =
      (fun t => t.behind steps) <$> within (g left right)) :
    (do
      let i ← l.visit db depth
      let j ← r.visit db depth
      f i j).run steps =
    (fun t => t.behind steps) <$> within (do
      let left ← l.evaluateAt db depth steps.length
      let right ← r.evaluateAt db depth (steps.length + left.earlier.length + 1)
      g left right) := by
  rw [StateT.run_bind, hl, within_bind, map_bind, bind_map_left]
  refine bind_congr fun left => ?_
  rw [Trace.behind, StateT.run_bind, hr, length_behind, within_bind, map_bind, bind_map_left]
  refine bind_congr fun right => ?_
  rw [Trace.behind, length_behind]
  exact hf left right

/-- A visit adds the steps of its subtree and returns the place of the last one. -/
theorem Expr.run_visit (db : Lookup) (e : Expr) (depth : Nat) (steps : List Step) :
    (e.visit db depth).run steps =
      (fun t => t.behind steps) <$> within (e.evaluateAt db depth steps.length) := by
  induction e generalizing depth steps with
  | relation name span =>
    rw [visit, evaluateAt, within_bind, map_bind, StateT.run_bind, Visit.run_lift, bind_map_left]
    exact bind_congr fun rows => run_push_eq_record (List.append_nil steps).symm rfl
  | project attributes e span ih =>
    rw [visit, evaluateAt, within_bind, map_bind, StateT.run_bind, ih, bind_map_left]
    refine bind_congr fun input => ?_
    rw [Trace.behind, StateT.run_bind, run_rowsAt_last, pure_bind]
    exact run_push_eq_record rfl (length_behind input steps)
  | select condition e span ih =>
    rw [visit, evaluateAt, within_bind, map_bind, StateT.run_bind, ih, bind_map_left]
    refine bind_congr fun input => ?_
    rw [Trace.behind, StateT.run_bind, run_rowsAt_last, pure_bind, within_bind, map_bind,
      StateT.run_bind, Visit.run_lift_logged, bind_map_left]
    exact bind_congr fun c => run_push_eq_record rfl (length_behind input steps)
  | union l r span ihl ihr =>
    refine run_operands (ihl (depth + 1)) (ihr (depth + 1)) fun left right => ?_
    rw [run_rowsAt_operands]
    refine run_push_eq_record (List.append_assoc _ _ _) ?_
    rw [length_behind, length_behind]
  | join condition l r span ihl ihr =>
    refine run_operands (ihl (depth + 1)) (ihr (depth + 1)) fun left right => ?_
    rw [within_bind, map_bind, StateT.run_bind, Visit.run_lift, bind_map_left]
    refine bind_congr fun names => ?_
    rw [run_rowsAt_operands]
    refine run_push_eq_record (List.append_assoc _ _ _) ?_
    rw [length_behind, length_behind]

/-- The steps on the list are those of the trace, with the same notes. A tree without a trace has
the error of its malformed join, and no place is looked at in vain. -/
theorem Expr.execute_eq (db : Lookup) (e : Expr) :
    e.execute db = do return ((← e.evaluate db).map Trace.steps).mapError .malformed := by
  rw [execute, e.run_visit, evaluate, List.length_nil]
  generalize e.evaluateAt db 0 0 = result
  obtain ⟨value, notes⟩ := result
  cases value <;> exact congrArg (Logged.mk _) (List.append_nil _)

/-- No place is looked at in vain. -/
theorem Expr.value_execute_ne_missing (db : Lookup) (e : Expr) (index : Nat) :
    (e.execute db).value ≠ .error (.missing index) := by
  rw [execute_eq, Logged.value_bind, Logged.value_pure]
  cases (e.evaluate db).value with
  | ok t => nofun
  | error err => nofun

end RelTrace
