import RelTrace.Proofs.Keyed
import RelTrace.Proofs.Relation.Union
import RelTrace.Proofs.Value.Places

/-!
# Selections of unions

Rows count as the same up to the order of their attributes and the sign of zeros. Comparisons look a
value up by its name and compare numbers by their places on the line, so no condition tells the same
rows apart. Repetitions may therefore be dropped before or after a selection.
-/

namespace RelTrace

namespace Value

@[simp] theorem place?_unsignedZero (v : Value) : v.unsignedZero.place? = v.place? := by
  cases v with
  | bool | text => rfl
  | number n => rw [unsignedZero, place?_number, place?_number, Number.rank?_unsignedZero]

@[simp] theorem isText_unsignedZero (v : Value) : v.unsignedZero.isText = v.isText := by
  cases v <;> rfl

theorem looselyCompare?_unsignedZero (v w : Value) :
    v.unsignedZero.looselyCompare? w = v.looselyCompare? w := by
  by_cases h : v.isText ∧ w.isText
  · obtain ⟨s, rfl⟩ := isText_iff.mp h.1
    rfl
  · rw [looselyCompare?_of_not_texts h, looselyCompare?_of_not_texts (by simpa using h),
      place?_unsignedZero]

theorem looselyEqual_unsignedZero (v w : Value) :
    v.unsignedZero.looselyEqual w = v.looselyEqual w := by
  rw [Bool.eq_iff_iff, looselyEqual_iff, looselyEqual_iff, looselyCompare?_unsignedZero]

end Value

theorem Comparator.holds_unsignedZero (c : Comparator) (v literal : Value) :
    c.holds v.unsignedZero literal = c.holds v literal := by
  simp only [holds, Value.looselyEqual_unsignedZero, Value.looselyCompare?_unsignedZero]

namespace Row

variable {r s : Row}

theorem mem_atoms_iff {name : String} {v : Value} :
    (name, v) ∈ atoms r ↔ (r.find? name).map Value.unsignedZero = some v := by
  simp [atoms, Option.map_eq_some_iff, Keyed.find?_eq_some_iff]

theorem Same.map_find?_eq (h : Same r s) (name : String) :
    (r.find? name).map Value.unsignedZero = (s.find? name).map Value.unsignedZero :=
  Option.ext fun v => by rw [← mem_atoms_iff, ← mem_atoms_iff, (same_iff_perm.mp h).mem_iff]

end Row

theorem Comparison.holds_eq_of_same {r s : Row} (c : Comparison) (h : r.Same s) :
    c.holds r = c.holds s := by
  have hfind := h.map_find?_eq c.subject
  rw [holds, holds]
  cases hr : r.find? c.subject with
  | none =>
    rw [hr, Option.map_none, eq_comm, Option.map_eq_none_iff] at hfind
    rw [hfind]
  | some v =>
    rw [hr, Option.map_some, eq_comm] at hfind
    obtain ⟨w, hw, hzero⟩ := Option.map_eq_some_iff.mp hfind
    rw [hw]
    change c.comparator.holds v c.literal = c.comparator.holds w c.literal
    rw [← c.comparator.holds_unsignedZero v, ← hzero, c.comparator.holds_unsignedZero]

/-- No condition tells the same rows apart. -/
theorem Condition.holds_eq_of_same {r s : Row} (c : Condition) (h : r.Same s) :
    c.holds r = c.holds s := by
  cases c with
  | always => rfl
  | compare c => exact c.holds_eq_of_same h

namespace Relation

/-- Repetitions may be dropped before or after sifting if the same rows are sifted alike. -/
theorem filter_distinct {p : Row → Bool} (hp : ∀ {r s : Row}, r.Same s → p r = p s)
    (rows : Relation) : (distinct rows).filter p = distinct (rows.filter p) := by
  induction rows with
  | nil => rfl
  | cons row rows ih =>
    rw [distinct_cons, List.filter_cons, List.filter_cons, List.filter_filter]
    by_cases hrow : p row
    · rw [if_pos hrow, if_pos hrow, distinct_cons, ← ih, List.filter_filter]
      simp only [Bool.and_comm]
    · -- Rows like the dropped one would be sifted out anyway.
      have hdropped : ∀ r ∈ distinct rows, (p r && decide ¬ r.Same row) = p r := by
        intro r _
        by_cases hsame : r.Same row
        · rw [hp hsame, Bool.eq_false_iff.mpr hrow, Bool.false_and]
        · simp [hsame]
      rw [if_neg hrow, if_neg hrow, ← ih, List.filter_congr hdropped]

/-- A selection of a union is the union of the selections. -/
theorem select_union (a b : Relation) (c : Condition) :
    (a.union b).select c = (a.select c).union (b.select c) := by
  rw [select, union, filter_distinct c.holds_eq_of_same, List.filter_append]
  rfl

theorem select_union_dropping :
    let one : Value := .number (.ofInt 1)
    let c : Condition := .compare ⟨"x", .above, .number .zero⟩
    let a : Relation := [.ofList [("x", one)], .ofList [("x", .text "s")], .ofList [("y", one)]]
    let b : Relation := [.ofList [("x", .number (.ofInt 2))], .ofList [("x", one)]]
    (a.union b).length = 4 ∧ ((a.union b).select c).length = 2 ∧
      (a.union b).select c = (a.select c).union (b.select c) := by
  intro one c a b
  exact ⟨by decide +kernel, by decide +kernel, select_union a b c⟩

end Relation

end RelTrace
