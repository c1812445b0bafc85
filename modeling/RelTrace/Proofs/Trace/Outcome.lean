import RelTrace.Proofs.Query.Spans
import RelTrace.Proofs.Trace.Denotation

/-!
# Final rows

The final rows of a query depend on its tree up to spans only: where a node was read shows in the
trace and in errors, but not in the rows.

## Main definitions

* `Expr.rows?`: the final rows of a tree, without the place of a malformed join.
-/

namespace RelTrace

namespace Expr

/-- The final rows of a tree. -/
def rows? (db : Lookup) (e : Expr) : Option Relation := (e.denote db).toOption

theorem rows?_eq_some_iff {db : Lookup} {e : Expr} {rows : Relation} :
    e.rows? db = some rows ↔ e.denote db = .ok rows := by
  rw [rows?]
  cases e.denote db <;> simp [Except.toOption]

section Equations

variable (db : Lookup)

theorem rows?_project (attributes : List String) (e : Expr) (span : Span) :
    (project attributes e span).rows? db =
      (e.rows? db).map fun rows => rows.project attributes := by
  simp only [rows?, denote]
  cases e.denote db <;> rfl

theorem rows?_select (condition : String) (e : Expr) (span : Span) :
    (select condition e span).rows? db =
      (e.rows? db).map fun rows => rows.select (Condition.read condition) := by
  simp only [rows?, denote]
  cases e.denote db <;> rfl

theorem rows?_union (l r : Expr) (span : Span) :
    (union l r span).rows? db =
      (l.rows? db).bind fun left => (r.rows? db).map fun right => left.union right := by
  simp only [rows?, denote]
  cases l.denote db <;> cases r.denote db <;> rfl

theorem rows?_join (condition : String) (l r : Expr) (span : Span) :
    (join condition l r span).rows? db =
      (l.rows? db).bind fun left => (r.rows? db).bind fun right =>
        (joinAttributes? condition).map fun (leftName, rightName) =>
          left.join right leftName rightName := by
  simp only [rows?, denote]
  cases l.denote db <;> cases r.denote db <;> cases joinAttributes? condition <;> rfl

/-- Spans do not count for the rows. -/
theorem rows?_mapSpans (f : Span → Span) (e : Expr) : (e.mapSpans f).rows? db = e.rows? db := by
  induction e with
  | relation => rfl
  | project _ _ _ ih => rw [mapSpans, rows?_project, rows?_project, ih]
  | select _ _ _ ih => rw [mapSpans, rows?_select, rows?_select, ih]
  | union _ _ _ ihl ihr => rw [mapSpans, rows?_union, rows?_union, ihl, ihr]
  | join _ _ _ _ ihl ihr => rw [mapSpans, rows?_join, rows?_join, ihl, ihr]

theorem rows?_eq_of_eraseSpans_eq {e o : Expr} (h : e.eraseSpans = o.eraseSpans) :
    e.rows? db = o.rows? db := by
  rw [← rows?_mapSpans db (fun _ => ⟨0, 0⟩) e, ← rows?_mapSpans db (fun _ => ⟨0, 0⟩) o]
  exact congrArg (rows? db) h

end Equations

end Expr

theorem run_eq_ok_of_rows? {db : Lookup} {query : String} {e : Expr} {rows : Relation}
    (he : (compile query).value = .ok e) (h : e.rows? db = some rows) :
    ∃ t, (run db query).value = .ok t ∧ t.result.rows = rows := by
  rw [Expr.rows?_eq_some_iff] at h
  exact ⟨_, run_eq_ok_iff.mpr ⟨e, he, Expr.evaluate_of_denote h⟩, Expr.rows_expectedTrace h⟩

theorem rows?_of_run {db : Lookup} {query : String} {e : Expr} {t : Trace}
    (he : (compile query).value = .ok e) (h : (run db query).value = .ok t) :
    e.rows? db = some t.result.rows := by
  obtain ⟨e', he', heval⟩ := run_eq_ok_iff.mp h
  obtain rfl : e' = e := Except.ok.inj (he'.symm.trans he)
  exact Expr.rows?_eq_some_iff.mpr (Expr.denote_of_evaluate heval)

end RelTrace
