import RelTrace.Proofs.Text.Cut
import RelTrace.Proofs.Trace.Denotation

/-!
# Failing evaluations

Whether a tree has a trace is decided without looking at any relation. It has none if the condition
of some join is not split by exactly one equals sign, and the error is about the first such join in
post-order.

## Main definitions

* `MalformedJoin.ArisesAt`: the node is a join that makes this error by itself.
* `Expr.malformed?`: the error that a node makes by itself.
* `Expr.failure?`: the error of a tree.
-/

namespace RelTrace

theorem isSome_joinAttributes?_iff {condition : String} :
    (joinAttributes? condition).isSome ↔ condition.toList.count '=' = 1 := by
  rw [joinAttributes?, Option.isSome_map, Text.isSome_soleCut?_singleton_iff]

/-- The error is about this node, a join whose condition does not have exactly one equals sign. -/
def MalformedJoin.ArisesAt (err : MalformedJoin) (node : Expr) : Prop :=
  ∃ l r, node = .join err.condition l r err.span ∧ err.condition.toList.count '=' ≠ 1

namespace Expr

/-- The error of a join that does not have exactly one equals sign; other nodes make none. -/
def malformed? : Expr → Option MalformedJoin
  | join condition _ _ span =>
    if condition.toList.count '=' = 1 then none else some ⟨condition, span⟩
  | _ => none

theorem malformed?_join (condition : String) (l r : Expr) (span : Span) :
    (join condition l r span).malformed? =
      if (joinAttributes? condition).isSome then none else some ⟨condition, span⟩ := by
  simp only [malformed?, isSome_joinAttributes?_iff]

theorem malformed?_eq_some_iff {node : Expr} {err : MalformedJoin} :
    node.malformed? = some err ↔ err.ArisesAt node := by
  cases node with
  | join condition l r span =>
    rw [malformed?]
    constructor
    · intro h
      split at h
      · cases h
      · next hcount =>
        cases h
        exact ⟨l, r, rfl, hcount⟩
    · rintro ⟨l', r', hnode, hcount⟩
      cases err
      cases hnode
      exact if_neg hcount
  | relation | project | select | union => simp [malformed?, MalformedJoin.ArisesAt]

theorem malformed?_eq_none_iff {node : Expr} :
    node.malformed? = none ↔ ∀ err : MalformedJoin, ¬ err.ArisesAt node := by
  simp only [Option.eq_none_iff_forall_ne_some, ne_eq, malformed?_eq_some_iff]

/-- The error that leaves a tree without rows. -/
def failure? (db : Lookup) (e : Expr) : Option MalformedJoin :=
  match e.denote db with
  | .error err => some err
  | .ok _ => none

section Equations

variable (db : Lookup)

theorem failure?_project (attributes : List String) (e : Expr) (span : Span) :
    (project attributes e span).failure? db = e.failure? db := by
  simp only [failure?, denote]
  cases e.denote db <;> rfl

theorem failure?_select (condition : String) (e : Expr) (span : Span) :
    (select condition e span).failure? db = e.failure? db := by
  simp only [failure?, denote]
  cases e.denote db <;> rfl

theorem failure?_union (l r : Expr) (span : Span) :
    (union l r span).failure? db = (l.failure? db).or (r.failure? db) := by
  simp only [failure?, denote]
  cases l.denote db <;> cases r.denote db <;> rfl

theorem failure?_join (condition : String) (l r : Expr) (span : Span) :
    (join condition l r span).failure? db =
      ((l.failure? db).or (r.failure? db)).or (join condition l r span).malformed? := by
  simp only [failure?, denote]
  cases l.denote db with
  | error => rfl
  | ok left =>
    cases r.denote db with
    | error => rfl
    | ok right =>
      rw [malformed?_join]
      cases joinAttributes? condition <;> rfl

/-- The error of a tree is the first error that a node makes. -/
theorem failure?_eq_findSome? (depth : Nat) (e : Expr) :
    e.failure? db = (e.postorder depth).findSome? fun node => node.2.malformed? := by
  have hroot (node : Nat × Expr) :
      [node].findSome? (fun node => node.2.malformed?) = node.2.malformed? := by
    simp only [List.findSome?_cons, List.findSome?_nil]
    cases node.2.malformed? <;> rfl
  induction e generalizing depth with
  | relation => rfl
  | project _ _ _ ih | select _ _ _ ih =>
    simp only [failure?_project, failure?_select, ih (depth + 1), postorder,
      List.findSome?_append, hroot]
    exact Option.or_none.symm
  | union _ _ _ ihl ihr =>
    rw [failure?_union, ihl (depth + 1), ihr (depth + 1), postorder, List.findSome?_append,
      List.findSome?_append, hroot]
    exact Option.or_none.symm
  | join _ _ _ _ ihl ihr =>
    rw [failure?_join, ihl (depth + 1), ihr (depth + 1), postorder, List.findSome?_append,
      List.findSome?_append, hroot]

end Equations

variable {db : Lookup} {e : Expr}

/-- The tree alone decides whether there is a trace. -/
theorem value_evaluate_eq (db : Lookup) (e : Expr) :
    (e.evaluate db).value =
      match (e.postorder 0).findSome? fun node => node.2.malformed? with
      | some err => .error err
      | none => .ok (e.expectedTrace db 0 0) := by
  change e.traceAt db 0 0 = _
  rw [traceAt_eq, ← failure?_eq_findSome? db, failure?]
  cases e.denote db <;> rfl

theorem evaluate_eq_error_iff {err : MalformedJoin} :
    (e.evaluate db).value = .error err ↔
      (e.postorder 0).findSome? (fun node => node.2.malformed?) = some err := by
  rw [value_evaluate_eq]
  split <;> simp [*]

theorem exists_evaluate_eq_ok_iff :
    (∃ t, (e.evaluate db).value = .ok t) ↔
      (e.postorder 0).findSome? (fun node => node.2.malformed?) = none := by
  rw [value_evaluate_eq]
  split <;> simp [*]

/-- Every node leaves one step, in post-order. -/
theorem map_node_stepsAt (db : Lookup) (depth index : Nat) (e : Expr) :
    (e.stepsAt db depth index).map (fun s => (s.depth, s.operator, s.span)) =
      (e.postorder depth).map fun node => (node.1, node.2.operator, node.2.span) := by
  rw [stepsAt, List.map_map]
  conv =>
    rhs
    rw [← List.zipIdx_map_fst index (e.postorder depth), List.map_map]
  rfl

end Expr

/-- Evaluation fails exactly with the error of the first malformed join in post-order, whatever the
relations are. Otherwise every node leaves its step. -/
theorem evaluation_fails_at_first_malformed_join (e : Expr) :
    (∀ (db₁ db₂ : Lookup) (err : MalformedJoin),
      (e.evaluate db₁).value = .error err ↔ (e.evaluate db₂).value = .error err) ∧
    ∀ db : Lookup,
      ((∃ err, (e.evaluate db).value = .error err) ↔
        ∃ node ∈ e.postorder 0, ∃ err : MalformedJoin, err.ArisesAt node.2) ∧
      (∀ err, (e.evaluate db).value = .error err ↔
        ∃ before node after, e.postorder 0 = before ++ node :: after ∧ err.ArisesAt node.2 ∧
          ∀ earlier ∈ before, ∀ other : MalformedJoin, ¬ other.ArisesAt earlier.2) ∧
      ((∀ node ∈ e.postorder 0, ∀ err : MalformedJoin, ¬ err.ArisesAt node.2) ↔
        ∃ t, (e.evaluate db).value = .ok t ∧
          t.steps.map (fun s => (s.depth, s.operator, s.span)) =
            (e.postorder 0).map fun node => (node.1, node.2.operator, node.2.span)) := by
  refine ⟨fun db₁ db₂ err => ?_, fun db => ⟨?_, fun err => ?_, ?_⟩⟩
  · rw [Expr.evaluate_eq_error_iff, Expr.evaluate_eq_error_iff]
  · simp only [Expr.evaluate_eq_error_iff, ← Option.isSome_iff_exists, List.findSome?_isSome_iff,
      ← Expr.malformed?_eq_some_iff]
  · rw [Expr.evaluate_eq_error_iff, List.findSome?_eq_some_iff]
    simp only [Expr.malformed?_eq_none_iff, Expr.malformed?_eq_some_iff]
  · simp only [← Expr.malformed?_eq_none_iff, ← List.findSome?_eq_none_iff]
    rw [← @Expr.exists_evaluate_eq_ok_iff db e]
    constructor
    · rintro ⟨t, ht⟩
      exact ⟨t, ht, by rw [Expr.steps_of_evaluate ht, Expr.map_node_stepsAt]⟩
    · rintro ⟨t, ht, -⟩
      exact ⟨t, ht⟩

theorem evaluation_fails_at_first_malformed_join_left :
    let first : Expr := .join "a" (.relation "R" ⟨1, 2⟩) (.relation "S" ⟨9, 10⟩) ⟨1, 10⟩
    let e : Expr := .join "a=b=c" first (.relation "T" ⟨22, 23⟩) ⟨1, 23⟩
    let db₁ : Lookup := fun _ => none
    let db₂ : Lookup := fun _ => some [.ofList []]
    (e.evaluate db₁).value = .error ⟨"a", ⟨1, 10⟩⟩ ∧
      (e.evaluate db₂).value = .error ⟨"a", ⟨1, 10⟩⟩ := by
  intro first e db₁ db₂
  obtain ⟨hany, hfirst⟩ := evaluation_fails_at_first_malformed_join e
  have herr : (e.evaluate db₁).value = .error ⟨"a", ⟨1, 10⟩⟩ := by
    refine ((hfirst db₁).2.1 _).mpr ⟨[(2, .relation "R" ⟨1, 2⟩), (2, .relation "S" ⟨9, 10⟩)],
      (1, first), _, rfl, ⟨_, _, rfl, by decide⟩, ?_⟩
    rintro earlier hearlier other ⟨l, r, hjoin, -⟩
    simp only [List.mem_cons, List.not_mem_nil, or_false] at hearlier
    rcases hearlier with rfl | rfl
    all_goals cases hjoin
  exact ⟨herr, (hany db₁ db₂ _).mp herr⟩

end RelTrace
