import RelTrace.Proofs.Query.Laminar
import RelTrace.Proofs.Trace.Denotation
import RelTrace.Trace.Highlight

/-!
# Highlighting the steps of a query

A span that fits a text is marked there. The steps of a query carry the spans of its nodes, which
all lie in the query, so that every step can be highlighted.

## Main definitions

* `Span.MarksOut`: what is marked of a text by a span that fits it.
-/

namespace RelTrace

/-- The span covers the inside of the text, so that highlighting marks the inside and nothing else,
without a note. -/
def Span.MarksOut (s : Span) (source before inside after : String) : Prop :=
  source = before ++ inside ++ after ∧ before.length = s.start ∧
    (before ++ inside).length = s.stop ∧
    ∀ marks, highlight marks s source =
      pure (before ++ marks.opening ++ inside ++ marks.closing ++ after)

theorem Span.exists_marksOut {s : Span} {source : String} (h : s.fits source.length) :
    ∃ before inside after, s.MarksOut source before inside after := by
  rw [← String.length_toList] at h
  obtain ⟨before, inside, after, hsplit, hsource, hstart, hstop⟩ := exists_split? h
  refine ⟨_, _, _, ?_, ?_, ?_, fun marks => by rw [highlight, hsplit]⟩
  · apply String.toList_inj.mp
    simpa using hsource
  · rw [String.length_ofList, hstart]
  · rw [String.length_append, String.length_ofList, String.length_ofList, hstart, hstop]

/-- The step of a node has the span of the node. -/
theorem Expr.exists_node_of_mem_steps {db : Lookup} {e : Expr} {t : Trace} {s : Step}
    (h : (e.evaluate db).value = .ok t) (hs : s ∈ t.steps) :
    ∃ node ∈ e.postorder 0, node.2.span = s.span := by
  rw [steps_of_evaluate h, stepsAt] at hs
  obtain ⟨⟨node, i⟩, hmem, rfl⟩ := List.mem_map.mp hs
  exact ⟨node, List.fst_mem_of_mem_zipIdx hmem, rfl⟩

/-- The span of a step is not empty and lies in the query. -/
theorem span_of_run {db : Lookup} {query : String} {t : Trace} {s : Step}
    (h : (run db query).value = .ok t) (hs : s ∈ t.steps) :
    s.span.start < s.span.stop ∧ s.span.fits query.length := by
  obtain ⟨e, he, heval⟩ := run_eq_ok_iff.mp h
  obtain ⟨node, hnode, hspan⟩ := Expr.exists_node_of_mem_steps heval hs
  obtain ⟨hlt, hle, -⟩ := liesIn_of_compile he 0 node hnode
  rw [hspan] at hlt hle
  simp only [Span.fits, Bool.and_eq_true, decide_eq_true_eq]
  exact ⟨hlt, Nat.le_of_lt hlt, hle⟩

/-- The spans of a compiled query are a laminar family within the query, and every step of a run can
be highlighted. -/
theorem spans_laminar_in_query {query : String} {e : Expr} (h : (compile query).value = .ok e) :
    (∀ node ∈ e.postorder 0, node.2.LiesIn query) ∧
      ((e.postorder 0).Pairwise fun a b => a.2.span.Laminar b.2.span) ∧
      ∀ {db : Lookup} {t : Trace}, (run db query).value = .ok t → ∀ s ∈ t.steps,
        s.span.start < s.span.stop ∧ s.span.fits query.length ∧
          ∃ before inside after, s.span.MarksOut query before inside after := by
  have hnodes := liesIn_of_compile h 0
  refine ⟨hnodes, Expr.laminar_of_liesIn hnodes, ?_⟩
  intro db t ht s hs
  obtain ⟨hlt, hfits⟩ := span_of_run ht hs
  exact ⟨hlt, hfits, Span.exists_marksOut hfits⟩

theorem spans_laminar_in_query_join :
    ∃ e t, (compile "A ⋈_\x7bx=y\x7d σ[éx>1]((B))").value = .ok e ∧
      (run (fun _ => none) "A ⋈_\x7bx=y\x7d σ[éx>1]((B))").value = .ok t ∧
      (∀ node ∈ e.postorder 0, node.2.LiesIn "A ⋈_\x7bx=y\x7d σ[éx>1]((B))") ∧
      ((e.postorder 0).Pairwise fun a b => a.2.span.Laminar b.2.span) ∧
      ∀ s ∈ t.steps, ∃ before inside after,
        s.span.MarksOut "A ⋈_\x7bx=y\x7d σ[éx>1]((B))" before inside after := by
  have he : (compile "A ⋈_\x7bx=y\x7d σ[éx>1]((B))").value =
      .ok (.join "x=y" (.relation "A" ⟨0, 1⟩)
        (.select "x>1" (.relation "B" ⟨19, 20⟩) ⟨10, 22⟩) ⟨0, 22⟩) := rfl
  obtain ⟨t, ht⟩ : ∃ t, (run (fun _ => none) "A ⋈_\x7bx=y\x7d σ[éx>1]((B))").value = .ok t :=
    ⟨_, run_eq_ok_iff.mpr ⟨_, he, rfl⟩⟩
  obtain ⟨hnodes, hlaminar, hsteps⟩ := spans_laminar_in_query he
  exact ⟨_, t, he, ht, hnodes, hlaminar, fun s hs => (hsteps ht s hs).2.2⟩

end RelTrace
