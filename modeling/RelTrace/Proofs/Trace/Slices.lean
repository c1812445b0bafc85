import RelTrace.Proofs.Query.Slices
import RelTrace.Proofs.Trace.Outcome
import RelTrace.Proofs.Trace.Shape

/-!
# Running a slice

A query whose run succeeds can be taken apart: the text under a relation, a projection or a
selection runs alone, and its final rows are those of the step of that node.
-/

namespace RelTrace

variable {query : String} {e node : Expr} {db : Lookup} {t : Trace} {d j : Nat}

/-- A node of a query that runs has a step, with the rows that the node means. -/
theorem exists_step_of_run (he : (compile query).value = .ok e)
    (hnode : (e.postorder 0)[j]? = some (d, node)) (hrun : (run db query).value = .ok t) :
    ∃ s, t.steps[j]? = some s ∧ s.operator = node.operator ∧ s.span = node.span ∧
      node.rows? db = some s.rows := by
  obtain ⟨e', he', heval⟩ := run_eq_ok_iff.mp hrun
  obtain rfl : e' = e := Except.ok.inj (he'.symm.trans he)
  obtain ⟨rows, hrows⟩ := Expr.denote_of_mem_postorder (Expr.denote_of_evaluate heval)
    (List.mem_of_getElem? hnode)
  refine ⟨node.stepAt db d j, ?_, rfl, rfl, ?_⟩
  · rw [Expr.steps_of_evaluate heval, Expr.getElem?_stepsAt, hnode, Nat.zero_add]
    rfl
  · rw [Expr.rows?_eq_some_iff, Expr.stepAt, hrows]
    rfl

/-- The text under a relation, a projection or a selection of a query is a query for that node, and
wherever the whole query runs, the final rows of the slice are those of the step of the node. -/
theorem slice_runs_as_its_node (he : (compile query).value = .ok e)
    (hnode : (e.postorder 0)[j]? = some (d, node))
    (hoperator : node.operator = .relation ∨ node.operator = .projection ∨
      node.operator = .selection) :
    ∃ slice e', node.span.slice? query = some slice ∧ (compile slice).value = .ok e' ∧
      e'.move (.shift node.span.start) = node ∧
      ∀ {db : Lookup} {t : Trace}, (run db query).value = .ok t →
        ∃ t' s, (run db slice).value = .ok t' ∧ t.steps[j]? = some s ∧
          s.operator = node.operator ∧ s.span = node.span ∧ t'.result.rows = s.rows := by
  have hnot : node.operator ≠ .union ∧ node.operator ≠ .join := by
    rcases hoperator with h | h | h <;> simp [h]
  obtain ⟨slice, e', hslice, he', hmove⟩ := compile_slice he (List.mem_of_getElem? hnode) hnot
  have hmove' : e'.move (.shift node.span.start) = node := hmove
  refine ⟨slice, e', hslice, he', hmove', fun {db t} hrun => ?_⟩
  obtain ⟨s, hs, hsoperator, hspan, hrows⟩ := exists_step_of_run he hnode hrun
  have hrows' : e'.rows? db = some s.rows := by
    rw [← hrows, ← hmove']
    exact (Expr.rows?_mapSpans db _ e').symm
  obtain ⟨t', ht', hresult⟩ := run_eq_ok_of_rows? he' hrows'
  exact ⟨t', s, ht', hs, hsoperator, hspan, hresult⟩

theorem slice_runs_as_its_node_select :
    let db : Lookup := fun name =>
      if name = "R" then some [.ofList [("x", .text "2")], .ofList [("x", .text "1")]] else none
    ∃ t slice e' t' s, (run db "T ∪ (π[x](σ[éx>1]((R))))").value = .ok t ∧
      (⟨10, 22⟩ : Span).slice? "T ∪ (π[x](σ[éx>1]((R))))" = some slice ∧
      (compile slice).value = .ok e' ∧
      e'.move (.shift 10) = .select "x>1" (.relation "R" ⟨19, 20⟩) ⟨10, 22⟩ ∧
      (run db slice).value = .ok t' ∧ t.steps[2]? = some s ∧ s.operator = .selection ∧
      s.span = ⟨10, 22⟩ ∧ t'.result.rows = s.rows := by
  intro db
  have he : (compile "T ∪ (π[x](σ[éx>1]((R))))").value = .ok (.union (.relation "T" ⟨0, 1⟩)
      (.project ["x"] (.select "x>1" (.relation "R" ⟨19, 20⟩) ⟨10, 22⟩) ⟨5, 23⟩) ⟨0, 23⟩) := rfl
  obtain ⟨t, ht⟩ : ∃ t, (run db "T ∪ (π[x](σ[éx>1]((R))))").value = .ok t :=
    ⟨_, run_eq_ok_iff.mpr ⟨_, he, rfl⟩⟩
  obtain ⟨slice, e', hslice, he', hmove, hruns⟩ :=
    slice_runs_as_its_node (j := 2) he rfl (.inr (.inr rfl))
  obtain ⟨t', s, ht', hs, hoperator, hspan, hrows⟩ := hruns ht
  exact ⟨t, slice, e', t', s, ht, hslice, he', hmove, ht', hs, hoperator, hspan, hrows⟩

end RelTrace
