import RelTrace.Proofs.Trace.Denotation

/-!
# What an evaluation reads

The outcome of a tree depends on the lookup only through the relations that the tree names, and a
missing relation counts as an empty one. Relations under other names come and go without a trace.

## Main definitions

* `Expr.baseNames`: the names of the base relations of a tree.
* `Lookup.AgreeOn`: lookups that give the same rows for some names.
* `Lookup.put`: a lookup with another relation, or none, under one name.
-/

namespace RelTrace

/-- The names of the base relations, from left to right. -/
def Expr.baseNames : Expr → List String
  | relation name _ => [name]
  | project _ e _ | select _ e _ => e.baseNames
  | union l r _ | join _ l r _ => l.baseNames ++ r.baseNames

namespace Lookup

/-- The lookups give the same rows for each of the names. A missing relation has no rows. -/
def AgreeOn (names : List String) (db₁ db₂ : Lookup) : Prop :=
  ∀ name ∈ names, (db₁ name).getD [] = (db₂ name).getD []

/-- The lookup with another relation under the name, or with none. -/
def put (db : Lookup) (name : String) (rows? : Option Relation) : Lookup :=
  fun other => if other = name then rows? else db other

variable {db₁ db₂ : Lookup} {names others : List String} {name : String}

theorem agreeOn_append_iff :
    AgreeOn (names ++ others) db₁ db₂ ↔ AgreeOn names db₁ db₂ ∧ AgreeOn others db₁ db₂ :=
  List.forall_mem_append

theorem agreeOn_put (h : name ∉ names) (db : Lookup) (rows? : Option Relation) :
    AgreeOn names (db.put name rows?) db := by
  intro other hother
  have hne : other ≠ name := fun heq => h (heq ▸ hother)
  rw [put, if_neg hne]

end Lookup

variable {db₁ db₂ : Lookup} {e : Expr}

/-- Subtrees have the same outcome wherever they stand. -/
theorem Expr.traceAt_eq_of_agreeOn (h : Lookup.AgreeOn e.baseNames db₁ db₂) (depth index : Nat) :
    e.traceAt db₁ depth index = e.traceAt db₂ depth index := by
  induction e generalizing depth index with
  | relation name span =>
    have hrows : (db₁ name).getD [] = (db₂ name).getD [] := h name (List.mem_singleton_self name)
    simp only [traceAt, evaluateAt, Evaluation.value_run_bind, Evaluation.value_run_lookUp, hrows]
  | project attributes e span ih => rw [traceAt_project, traceAt_project, ih h]
  | select condition e span ih => rw [traceAt_select, traceAt_select, ih h]
  | union l r span ihl ihr =>
    obtain ⟨hl, hr⟩ := Lookup.agreeOn_append_iff.mp h
    simp only [traceAt_union, ihl hl, ihr hr]
  | join condition l r span ihl ihr =>
    obtain ⟨hl, hr⟩ := Lookup.agreeOn_append_iff.mp h
    simp only [traceAt_join, ihl hl, ihr hr]

theorem Expr.value_evaluate_eq_of_agreeOn (h : Lookup.AgreeOn e.baseNames db₁ db₂) :
    (e.evaluate db₁).value = (e.evaluate db₂).value :=
  traceAt_eq_of_agreeOn h 0 0

theorem value_run_eq_of_agreeOn {query : String}
    (h : ∀ e, (compile query).value = .ok e → Lookup.AgreeOn e.baseNames db₁ db₂) :
    (run db₁ query).value = (run db₂ query).value := by
  simp only [run, Logged.value_bind]
  cases he : (compile query).value with
  | error => rfl
  | ok e =>
    simp only [runExpr, Logged.value_bind, Logged.value_pure]
    rw [Expr.value_evaluate_eq_of_agreeOn (h e he)]

/-- Lookups that agree on the named relations give the same error or the same trace, so no other
relation matters, whether it is added, removed or changed. -/
theorem evaluation_reads_named_relations (e : Expr) :
    (∀ {db₁ db₂ : Lookup}, Lookup.AgreeOn e.baseNames db₁ db₂ →
        (e.evaluate db₁).value = (e.evaluate db₂).value) ∧
      (∀ {name : String}, name ∉ e.baseNames → ∀ (db : Lookup) (rows? : Option Relation),
        (e.evaluate (db.put name rows?)).value = (e.evaluate db).value) ∧
      ∀ {query : String}, (compile query).value = .ok e → ∀ {db₁ db₂ : Lookup},
        Lookup.AgreeOn e.baseNames db₁ db₂ → (run db₁ query).value = (run db₂ query).value := by
  refine ⟨Expr.value_evaluate_eq_of_agreeOn, fun hname db rows? => ?_, fun he db₁ db₂ h => ?_⟩
  · exact Expr.value_evaluate_eq_of_agreeOn (Lookup.agreeOn_put hname db rows?)
  · refine value_run_eq_of_agreeOn fun e' he' => ?_
    obtain rfl : e' = e := Except.ok.inj (he'.symm.trans he)
    exact h

theorem evaluation_reads_named_relations_missing :
    let e : Expr := .union (.select "a=x" (.relation "R" ⟨7, 8⟩) ⟨0, 9⟩)
      (.relation "Missing" ⟨12, 19⟩) ⟨0, 19⟩
    let db₁ : Lookup := fun name =>
      if name = "R" then some [.ofList [("a", .text "x")]] else none
    let db₂ : Lookup := fun name =>
      if name = "R" then some [.ofList [("a", .text "x")]]
      else if name = "Missing" then some [] else some [.ofList [("b", .bool true)]]
    (compile "σ[a=x](R) ∪ Missing").value = .ok e ∧
      (e.evaluate db₁).value = (e.evaluate db₂).value ∧
      (e.evaluate (db₁.put "T" (some [.ofList []]))).value = (e.evaluate db₁).value ∧
      (run db₁ "σ[a=x](R) ∪ Missing").value = (run db₂ "σ[a=x](R) ∪ Missing").value ∧
      ∃ t, (e.evaluate db₁).value = .ok t ∧ t.result.rows.length = 1 := by
  intro e db₁ db₂
  have he : (compile "σ[a=x](R) ∪ Missing").value = .ok e := rfl
  have hagree : Lookup.AgreeOn e.baseNames db₁ db₂ := by
    intro name hname
    simp only [e, Expr.baseNames, List.cons_append, List.nil_append, List.mem_cons,
      List.not_mem_nil, or_false] at hname
    rcases hname with rfl | rfl <;> rfl
  obtain ⟨heval, hput, hrun⟩ := evaluation_reads_named_relations e
  exact ⟨he, heval hagree, hput (by decide) db₁ _, hrun he hagree, _, rfl, by decide +kernel⟩

end RelTrace
