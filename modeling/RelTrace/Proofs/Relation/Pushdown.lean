import RelTrace.Proofs.Relation.Join

/-!
# Selections of joins

A merged row has the value of the right row under every name that the right row has, and the value
of the left row under the others. So a comparison decides a merged row as it decides the row that
its attribute comes from, and may be made before the join on that side.
-/

namespace RelTrace

section Merge

variable {c : Comparison} {l r : Row}

theorem Comparison.holds_merge_of_eq_none (h : r.find? c.subject = none) :
    c.holds (l.merge r) = c.holds l := by
  rw [holds, holds, Keyed.find?_merge, h, Option.none_or]

theorem Comparison.holds_merge_of_ne_none (h : r.find? c.subject ≠ none) :
    c.holds (l.merge r) = c.holds r := by
  rw [holds, holds, Keyed.find?_merge, Option.or_of_isSome (Option.isSome_iff_ne_none.mpr h)]

end Merge

namespace Relation

variable {a b : Relation} {p : Row → Bool}

/-- Rows that are sifted by their left part may be sifted before they are joined. -/
theorem filter_join_left (h : ∀ l ∈ a, ∀ r ∈ b, p (l.merge r) = p l) (x y : String) :
    (a.join b x y).filter p = join (a.filter p) b x y := by
  induction a with
  | nil => rfl
  | cons l a ih =>
    obtain ⟨hl, ha⟩ := List.forall_mem_cons.mp h
    have hpairs : ∀ row ∈ join [l] b x y, p row = p l := by
      intro row hrow
      obtain ⟨l', hl', r, hr, hmerge, -⟩ := mem_join.mp hrow
      obtain rfl := List.mem_singleton.mp hl'
      obtain rfl := Keyed.isMerge_iff.mp hmerge
      exact hl r hr
    have hcons (rows : Relation) : join (l :: rows) b x y = join [l] b x y ++ rows.join b x y :=
      join_append [l] rows b x y
    rw [hcons, List.filter_append, ih ha, List.filter_cons]
    by_cases hp : p l
    · rw [if_pos hp, hcons (a.filter p),
        List.filter_eq_self.mpr fun row hrow => (hpairs row hrow).trans hp]
    · rw [if_neg hp, List.filter_eq_nil_iff.mpr fun row hrow => hpairs row hrow ▸ hp,
        List.nil_append]

theorem filter_join_right (h : ∀ l ∈ a, ∀ r ∈ b, p (l.merge r) = p r) (x y : String) :
    (a.join b x y).filter p = a.join (b.filter p) x y := by
  rw [join, join, List.filter_flatMap]
  refine List.flatMap_congr fun l hl => ?_
  rw [List.filter_map, List.filter_filter, List.filter_filter]
  congr 1
  refine List.filter_congr fun r hr => ?_
  rw [Function.comp_apply, h l hl r hr, Bool.and_comm]

/-- A comparison may be made before a join on the side that decides its attribute: on the left if
no row on the right has the attribute, on the right if all rows there have it. -/
theorem select_join (a b : Relation) (x y : String) (c : Comparison) :
    ((∀ r ∈ b, r.find? c.subject = none) →
      (a.join b x y).select (.compare c) = (a.select (.compare c)).join b x y) ∧
    ((∀ r ∈ b, r.find? c.subject ≠ none) →
      (a.join b x y).select (.compare c) = a.join (b.select (.compare c)) x y) :=
  ⟨fun h => filter_join_left (fun _ _ r hr => Comparison.holds_merge_of_eq_none (h r hr)) x y,
    fun h => filter_join_right (fun _ _ r hr => Comparison.holds_merge_of_ne_none (h r hr)) x y⟩

theorem select_join_lacking :
    let zero : Value := .number .zero
    let c : Comparison := ⟨"t", .different, .text "u"⟩
    let a : Relation := [.ofList [("x", zero)], .ofList [("x", zero), ("t", .text "u")]]
    let b : Relation := [.ofList [("y", zero)], .ofList [("y", .bool true)]]
    let b' : Relation := [.ofList [("y", zero), ("t", .bool true)]]
    (∀ r ∈ b, r.find? c.subject = none) ∧ (∀ r ∈ b', r.find? c.subject ≠ none) ∧
      ((a.select (.compare c)).join b "x" "y").length = 1 ∧
      (a.join b "x" "y").select (.compare c) = (a.select (.compare c)).join b "x" "y" ∧
      (a.join b' "x" "y").select (.compare c) = a.join (b'.select (.compare c)) "x" "y" := by
  intro zero c a b b'
  have hb : ∀ r ∈ b, r.find? c.subject = none := by decide +kernel
  have hb' : ∀ r ∈ b', r.find? c.subject ≠ none := by decide +kernel
  exact ⟨hb, hb', by decide +kernel, (select_join a b "x" "y" c).1 hb,
    (select_join a b' "x" "y" c).2 hb'⟩

end Relation

end RelTrace
