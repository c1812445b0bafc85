import RelTrace.Query.Canonical

/-!
# Trees up to spans

Spans only say where a node was read. Trees that differ in nothing else have the same canonical
text.

## Main definitions

* `Expr.mapSpans`: a tree with other spans.
* `Expr.eraseSpans`: a tree without its spans.
-/

namespace RelTrace.Expr

/-- The same tree with other spans. -/
def mapSpans (f : Span → Span) : Expr → Expr
  | relation name s => relation name (f s)
  | project attributes e s => project attributes (e.mapSpans f) (f s)
  | select condition e s => select condition (e.mapSpans f) (f s)
  | union l r s => union (l.mapSpans f) (r.mapSpans f) (f s)
  | join condition l r s => join condition (l.mapSpans f) (r.mapSpans f) (f s)

/-- The tree without its spans. Trees are equal up to spans if they agree without them. -/
def eraseSpans (e : Expr) : Expr := e.mapSpans fun _ => ⟨0, 0⟩

@[simp] theorem mapSpans_id (e : Expr) : e.mapSpans id = e := by
  induction e with
  | relation => rfl
  | project _ _ _ ih | select _ _ _ ih => simp [mapSpans, ih]
  | union _ _ _ ihl ihr | join _ _ _ _ ihl ihr => simp [mapSpans, ihl, ihr]

@[simp] theorem wrapsOnLeft_mapSpans (f : Span → Span) (e : Expr) :
    (e.mapSpans f).wrapsOnLeft = e.wrapsOnLeft := by
  cases e <;> rfl

@[simp] theorem wrapsOnRight_mapSpans (f : Span → Span) (e : Expr) :
    (e.mapSpans f).wrapsOnRight = e.wrapsOnRight := by
  cases e <;> rfl

@[simp] theorem canonical_mapSpans (f : Span → Span) (e : Expr) :
    (e.mapSpans f).canonical = e.canonical := by
  induction e with
  | relation => rfl
  | project _ _ _ ih | select _ _ _ ih => simp [mapSpans, canonical, ih]
  | union _ _ _ ihl ihr | join _ _ _ _ ihl ihr => simp [mapSpans, canonical, ihl, ihr]

theorem eraseSpans_project (attributes : List String) (e : Expr) (s : Span) :
    (project attributes e s).eraseSpans = project attributes e.eraseSpans ⟨0, 0⟩ := rfl

theorem eraseSpans_select (condition : String) (e : Expr) (s : Span) :
    (select condition e s).eraseSpans = select condition e.eraseSpans ⟨0, 0⟩ := rfl

theorem eraseSpans_union (l r : Expr) (s : Span) :
    (union l r s).eraseSpans = union l.eraseSpans r.eraseSpans ⟨0, 0⟩ := rfl

theorem eraseSpans_join (condition : String) (l r : Expr) (s : Span) :
    (join condition l r s).eraseSpans = join condition l.eraseSpans r.eraseSpans ⟨0, 0⟩ := rfl

theorem wrapsOnLeft_eraseSpans (e : Expr) : e.eraseSpans.wrapsOnLeft = e.wrapsOnLeft :=
  wrapsOnLeft_mapSpans _ e

theorem wrapsOnRight_eraseSpans (e : Expr) : e.eraseSpans.wrapsOnRight = e.wrapsOnRight :=
  wrapsOnRight_mapSpans _ e

@[simp] theorem span_eraseSpans (e : Expr) : e.eraseSpans.span = ⟨0, 0⟩ := by
  cases e <;> rfl

@[simp] theorem eraseSpans_eraseSpans (e : Expr) : e.eraseSpans.eraseSpans = e.eraseSpans := by
  induction e with
  | relation => rfl
  | project _ _ _ ih => rw [eraseSpans_project, eraseSpans_project, ih]
  | select _ _ _ ih => rw [eraseSpans_select, eraseSpans_select, ih]
  | union _ _ _ ihl ihr => rw [eraseSpans_union, eraseSpans_union, ihl, ihr]
  | join _ _ _ _ ihl ihr => rw [eraseSpans_join, eraseSpans_join, ihl, ihr]

theorem canonical_eq_of_eraseSpans_eq {e e' : Expr} (h : e.eraseSpans = e'.eraseSpans) :
    e.canonical = e'.canonical := by
  have := congrArg canonical h
  simpa [eraseSpans] using this

end RelTrace.Expr
