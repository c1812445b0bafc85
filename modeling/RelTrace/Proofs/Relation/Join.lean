import Mathlib.Data.List.Basic
import RelTrace.Proofs.Keyed
import RelTrace.Relation.Algebra

/-!
# Joins

A join goes through the rows of the left side and for each of them through the rows of the right
side. Two joins in a row therefore go through triples of rows, and which join comes first does not
matter as long as no row hides a join value of another one. Rows are paired not only by equal values
but also where both of them lack the attribute.

## Main definitions

* `Row.PairedBy`: both rows have their join attribute, with equal values.
-/

namespace RelTrace

/-- Both rows have a value under their attribute, and the values are equal. -/
def Row.PairedBy (leftName rightName : String) (l r : Row) : Prop :=
  ∃ v w, l.find? leftName = some v ∧ r.find? rightName = some w ∧ v.equal w

namespace Relation

theorem agree_iff {a b : Option Value} :
    agree a b ↔ (∃ v w, a = some v ∧ b = some w ∧ v.equal w) ∨ a = none ∧ b = none := by
  cases a <;> cases b <;> simp [agree]

/-- The pairs of rows in the order in which they are tried. -/
theorem join_eq_flatMap (left right : Relation) (leftName rightName : String) :
    left.join right leftName rightName =
      left.flatMap fun l => right.flatMap fun r =>
        if agree (l.find? leftName) (r.find? rightName) then [l.merge r] else [] := by
  refine List.flatMap_congr fun l _ => ?_
  rw [← List.filterMap_eq_map', List.filterMap_filter, List.filterMap_eq_flatMap_toList]
  refine List.flatMap_congr fun r _ => ?_
  split <;> rfl

theorem join_append (a b right : Relation) (leftName rightName : String) :
    join (a ++ b) right leftName rightName =
      a.join right leftName rightName ++ b.join right leftName rightName :=
  List.flatMap_append

section Pairs

variable {left right : Relation} {leftName rightName : String}

theorem mem_join {row : Row} :
    row ∈ left.join right leftName rightName ↔
      ∃ l ∈ left, ∃ r ∈ right, row.IsMerge l r ∧
        (l.PairedBy leftName rightName r ∨
          l.find? leftName = none ∧ r.find? rightName = none) := by
  simp only [join, List.mem_flatMap, List.mem_map, List.mem_filter, agree_iff, Keyed.isMerge_iff,
    Row.PairedBy]
  grind

/-- Where one side never lacks its attribute, rows are paired by equal values only. -/
theorem exists_pairedBy_of_mem_join {row : Row}
    (hpresent : (∀ l ∈ left, l.find? leftName ≠ none) ∨ ∀ r ∈ right, r.find? rightName ≠ none)
    (hrow : row ∈ left.join right leftName rightName) :
    ∃ l ∈ left, ∃ r ∈ right, row.IsMerge l r ∧ l.PairedBy leftName rightName r := by
  obtain ⟨l, hl, r, hr, hmerge, hpaired | ⟨hleft, hright⟩⟩ := mem_join.mp hrow
  · exact ⟨l, hl, r, hr, hmerge, hpaired⟩
  · rcases hpresent with h | h
    · exact absurd hleft (h l hl)
    · exact absurd hright (h r hr)

end Pairs

/-- A join holds the merged pairs of rows with equal join values, and besides them the merged pairs
of rows that both lack theirs. If one side has its attribute in every row, only the former are left,
and there are none if the other side has its attribute nowhere. -/
theorem join_pairs_equal_or_missing (left right : Relation) (leftName rightName : String) :
    (∀ row, row ∈ left.join right leftName rightName ↔
      ∃ l ∈ left, ∃ r ∈ right, row.IsMerge l r ∧
        (l.PairedBy leftName rightName r ∨
          l.find? leftName = none ∧ r.find? rightName = none)) ∧
    ((∀ l ∈ left, l.find? leftName ≠ none) ∨ (∀ r ∈ right, r.find? rightName ≠ none) →
      (∀ row ∈ left.join right leftName rightName,
        ∃ l ∈ left, ∃ r ∈ right, row.IsMerge l r ∧ l.PairedBy leftName rightName r) ∧
      ((∀ l ∈ left, l.find? leftName = none) ∨ (∀ r ∈ right, r.find? rightName = none) →
        left.join right leftName rightName = [])) := by
  refine ⟨fun row => mem_join, fun hpresent => ⟨fun row => exists_pairedBy_of_mem_join hpresent,
    fun habsent => List.eq_nil_iff_forall_not_mem.mpr fun row hrow => ?_⟩⟩
  obtain ⟨l, hl, r, hr, -, v, w, hv, hw, -⟩ := exists_pairedBy_of_mem_join hpresent hrow
  rcases habsent with h | h
  · exact absurd ((h l hl).symm.trans hv) (Option.some_ne_none v).symm
  · exact absurd ((h r hr).symm.trans hw) (Option.some_ne_none w).symm

theorem join_pairs_equal_or_missing_partly :
    let left : Relation := [.ofList [("id", .text "1")], .ofList [("id", .number .zero)]]
    let right : Relation := [.ofList [("of", .number (.finite true .zero))], .ofList []]
    (∀ l ∈ left, l.find? "id" ≠ none) ∧ (left.join right "id" "of").length = 1 ∧
      (∀ row ∈ left.join right "id" "of",
        ∃ l ∈ left, ∃ r ∈ right, row.IsMerge l r ∧ l.PairedBy "id" "of" r) ∧
      left.join right "id" "if" = [] := by
  intro left right
  have hleft : ∀ l ∈ left, l.find? "id" ≠ none := by decide +kernel
  have hright : ∀ r ∈ right, r.find? "if" = none := by decide +kernel
  exact ⟨hleft, by decide +kernel,
    ((join_pairs_equal_or_missing left right "id" "of").2 (.inl hleft)).1,
    ((join_pairs_equal_or_missing left right "id" "if").2 (.inl hleft)).2 (.inr hright)⟩

/-- Names that occur nowhere pair everything. -/
theorem join_pairs_rows_without_values :
    let left : Relation := [.ofList [("a", .number .zero)]]
    let right : Relation := [.ofList [("b", .bool true)]]
    ¬ ∀ row ∈ left.join right "x" "y",
        ∃ l ∈ left, ∃ r ∈ right, row.IsMerge l r ∧ l.PairedBy "x" "y" r := by
  intro left right h
  have hrow : (Keyed.ofList [("a", .number .zero)]).merge (.ofList [("b", .bool true)]) ∈
      left.join right "x" "y" :=
    mem_join.mpr ⟨_, List.mem_cons_self, _, List.mem_cons_self, Keyed.isMerge_merge _ _,
      .inr ⟨rfl, rfl⟩⟩
  obtain ⟨l, hl, -, -, -, v, -, hv, -⟩ := h _ hrow
  obtain rfl := List.mem_singleton.mp hl
  exact absurd hv nofun

/-- Joins may be regrouped if no row of the last relation hides the attribute that the first join
compares on its right, and the middle rows have the attribute that the second join compares on its
left wherever the first ones have it. -/
theorem join_assoc {a b c : Relation} {x y z w : String} (hc : ∀ row ∈ c, row.find? y = none)
    (hab : ∀ l ∈ a, ∀ r ∈ b, r.find? z ≠ none ∨ l.find? z = none) :
    (a.join b x y).join c z w = a.join (b.join c z w) x y := by
  simp only [join_eq_flatMap, List.flatMap_assoc]
  refine List.flatMap_congr fun l hl => List.flatMap_congr fun m hm => ?_
  -- The value that the second join compares comes from the middle row, hidden or not.
  have hz : (l.merge m).find? z = m.find? z := by
    rw [Keyed.find?_merge]
    rcases hab l hl m hm with h | h
    · rw [Option.or_of_isSome (Option.isSome_iff_ne_none.mpr h)]
    · rw [h, Option.or_none]
  have hy : ∀ r ∈ c, (m.merge r).find? y = m.find? y := fun r hr => by
    rw [Keyed.find?_merge, hc r hr, Option.none_or]
  by_cases hpaired : agree (l.find? x) (m.find? y)
  · rw [if_pos hpaired, List.flatMap_singleton, hz]
    refine List.flatMap_congr fun r hr => ?_
    split
    · rw [List.flatMap_singleton, hy r hr, if_pos hpaired, Keyed.merge_assoc]
    · rfl
  · rw [if_neg hpaired, List.flatMap_nil, eq_comm, List.flatMap_eq_nil_iff]
    intro r hr
    split
    · rw [List.flatMap_singleton, hy r hr, if_neg hpaired]
    · rfl

theorem join_assoc_hidden :
    let one : Number := .ofInt 1
    let a : Relation := [.ofList [("x", .number one), ("z", .text "s")], .ofList [("y", .text "t")]]
    let b : Relation := [.ofList [("y", .number one), ("z", .bool true)]]
    let c : Relation := [.ofList [("w", .bool true), ("x", .text "u")], .ofList [("w", .text "s")]]
    (∀ row ∈ c, row.find? "y" = none) ∧
      (∀ l ∈ a, ∀ r ∈ b, r.find? "z" ≠ none ∨ l.find? "z" = none) ∧
      ((a.join b "x" "y").join c "z" "w").length = 1 ∧
      (a.join b "x" "y").join c "z" "w" = a.join (b.join c "z" "w") "x" "y" := by
  intro one a b c
  have hc : ∀ row ∈ c, row.find? "y" = none := by decide +kernel
  have hab : ∀ l ∈ a, ∀ r ∈ b, r.find? "z" ≠ none ∨ l.find? "z" = none := by decide +kernel
  exact ⟨hc, hab, by decide +kernel, join_assoc hc hab⟩

end Relation

end RelTrace
