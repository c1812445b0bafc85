import RelTrace.Proofs.Relation.Distribution
import RelTrace.Proofs.Relation.Projection

/-!
# Projections of unions and joins

Rows that count as the same are projected to rows that count as the same, so repetitions may be
dropped before a projection if they are dropped once more after it. A merged row takes each of its
values from one of its operands, so a projection of a join needs of the operands only the listed
attributes and the join values.
-/

namespace RelTrace

namespace Row

/-- Same rows are projected to same rows. -/
theorem Same.project {r s : Row} (h : r.Same s) (attributes : List String) :
    Same (r.project attributes) (s.project attributes) := by
  apply same_iff_map_find?.mpr
  intro name
  rw [find?_project, find?_project]
  split
  · exact h.map_find?_eq name
  · rfl

/-- Merging does not see that other names have been dropped. -/
theorem find?_merge_project (l r : Row) {name : String} {kept kept' : List String}
    (h : name ∈ kept) (h' : name ∈ kept') :
    (Keyed.merge (l.project kept) (r.project kept')).find? name = (l.merge r).find? name := by
  rw [Keyed.find?_merge, Keyed.find?_merge, find?_project, find?_project, if_pos h, if_pos h']

end Row

namespace Relation

/-- Repetitions may be dropped before or after each row is replaced, if same rows are replaced by
same rows. -/
theorem distinct_map_distinct {f : Row → Row} (hf : ∀ {r s : Row}, r.Same s → (f r).Same (f s))
    (rows : Relation) : distinct ((distinct rows).map f) = distinct (rows.map f) := by
  rw [List.map_eq_flatMap, List.map_eq_flatMap]
  apply distinct_flatMap_distinct
  intro r s hsame t ht
  obtain rfl := List.mem_singleton.mp ht
  exact ⟨f s, List.mem_singleton_self _, hf hsame⟩

/-- A union may be made before or after a projection, if repetitions are dropped in the end. -/
theorem project_union (a b : Relation) (attributes : List String) :
    ((a.union b).project attributes).union [] =
      (a.project attributes).union (b.project attributes) := by
  calc ((a.union b).project attributes).union []
      = distinct ((distinct (a ++ b)).project attributes) := union_nil _
    _ = distinct ((a ++ b).project attributes) :=
        distinct_map_distinct (fun hsame => hsame.project attributes) (a ++ b)
    _ = distinct (a.project attributes ++ b.project attributes) := congrArg _ List.map_append

theorem project_union_dropping :
    let one : Value := .number (.ofInt 1)
    let a : Relation := [.ofList [("x", one), ("y", .text "s")], .ofList [("x", one)]]
    let b : Relation := [.ofList [("y", .text "s")], .ofList [("y", .bool true), ("x", one)]]
    ((a.union b).project ["x"]).union [] = (a.project ["x"]).union (b.project ["x"]) ∧
      (((a.union b).project ["x"]).union []).length = 2 := by
  intro one a b
  have hproject := project_union a b ["x"]
  refine ⟨hproject, ?_⟩
  rw [hproject]
  decide +kernel

section Operands

variable {a b : Relation} {x y : String} {f g h : Row → Row}

/-- The operands of a join may be changed row by row if the join values stay and if the changed
rows are merged to rows that count for as much. -/
theorem map_join_map (hx : ∀ l ∈ a, (g l).find? x = l.find? x)
    (hy : ∀ r ∈ b, (h r).find? y = r.find? y)
    (hmerge : ∀ l ∈ a, ∀ r ∈ b, f ((g l).merge (h r)) = f (l.merge r)) :
    (join (a.map g) (b.map h) x y).map f = (a.join b x y).map f := by
  simp only [join_eq_flatMap, List.flatMap_map, List.map_flatMap]
  refine List.flatMap_congr fun l hl => List.flatMap_congr fun r hr => ?_
  rw [hx l hl, hy r hr]
  split
  · exact congrArg (fun row => [row]) (hmerge l hl r hr)
  · rfl

end Operands

/-- The columns that neither the projection nor the join needs may be dropped before the join. -/
theorem project_join (a b : Relation) (x y : String) (attributes : List String) :
    (a.join b x y).project attributes =
      (join (a.project (attributes ++ [x])) (b.project (attributes ++ [y])) x y).project
        attributes := by
  have hkept (row : Row) (name : String) :
      (row.project (attributes ++ [name])).find? name = row.find? name := by simp
  refine (map_join_map (fun l _ => hkept l x) (fun r _ => hkept r y) fun l _ r _ => ?_).symm
  apply Row.project_congr
  intro name hname
  exact l.find?_merge_project r (List.mem_append_left _ hname) (List.mem_append_left _ hname)

theorem project_join_pairing :
    let one : Value := .number (.ofInt 1)
    let a : Relation := [.ofList [("x", one), ("u", .text "s")], .ofList [("x", .bool true)]]
    let b : Relation := [.ofList [("y", one), ("v", one), ("w", one)], .ofList [("y", one)]]
    (a.join b "x" "y").length = 2 ∧
      (a.join b "x" "y").project ["v", "u"] =
        (join (a.project ["v", "u", "x"]) (b.project ["v", "u", "y"]) "x" "y").project
          ["v", "u"] := by
  intro one a b
  exact ⟨by decide +kernel, project_join a b "x" "y" ["v", "u"]⟩

end Relation

end RelTrace
