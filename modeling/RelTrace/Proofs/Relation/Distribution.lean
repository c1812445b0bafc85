import RelTrace.Proofs.Relation.Identity
import RelTrace.Proofs.Relation.Join

/-!
# Joins of unions

Rows that count as the same are joined to the same rows, so whatever a repeated row is joined to
repeats as well. On the left side of a join, repetitions may therefore be dropped before or after
the join. On the right side this changes which of the same rows comes first, but not which rows
there are up to sameness.
-/

namespace RelTrace

namespace Row

variable {l l' r r' : Row}

/-- Same rows are merged to same rows. -/
theorem Same.merge (hl : l.Same l') (hr : r.Same r') :
    Same (Keyed.merge l r) (Keyed.merge l' r') := by
  rw [same_iff_map_find?]
  intro name
  rw [Keyed.find?_merge, Keyed.find?_merge, Option.map_or, Option.map_or, hl.map_find?_eq,
    hr.map_find?_eq]

end Row

namespace Relation

theorem agree_map_unsignedZero (a b : Option Value) :
    agree (a.map Value.unsignedZero) (b.map Value.unsignedZero) = agree a b := by
  have hequal (v w : Value) : v.equal w.unsignedZero = v.equal w := by
    rw [Value.equal_comm, Value.equal_unsignedZero, Value.equal_comm]
  cases a <;> cases b <;> simp [agree, hequal]

section Same

variable {l l' r r' : Row}

/-- Join values agree alike for the same rows. -/
theorem agree_eq_of_same (hl : l.Same l') (hr : r.Same r') (x y : String) :
    agree (l.find? x) (r.find? y) = agree (l'.find? x) (r'.find? y) := by
  rw [← agree_map_unsignedZero, hl.map_find?_eq, hr.map_find?_eq, agree_map_unsignedZero]

/-- What a row is joined to, the same row is joined to. -/
theorem exists_same_of_mem_join {a b a' b' : Relation} {x y : String} {row : Row}
    (ha : ∀ l ∈ a, ∃ l' ∈ a', l.Same l') (hb : ∀ r ∈ b, ∃ r' ∈ b', r.Same r')
    (h : row ∈ a.join b x y) : ∃ row' ∈ a'.join b' x y, row.Same row' := by
  simp only [join, List.mem_flatMap, List.mem_map, List.mem_filter] at h ⊢
  obtain ⟨l, hl, r, ⟨hr, hagree⟩, rfl⟩ := h
  obtain ⟨l', hl', hsamel⟩ := ha l hl
  obtain ⟨r', hr', hsamer⟩ := hb r hr
  rw [agree_eq_of_same hsamel hsamer] at hagree
  exact ⟨_, ⟨l', hl', r', ⟨hr', hagree⟩, rfl⟩, hsamel.merge hsamer⟩

end Same

/-- Repetitions may be dropped before or after each row is replaced by others, if the same rows are
replaced by the same ones. -/
theorem distinct_flatMap_distinct {f : Row → Relation}
    (hf : ∀ {r s : Row}, r.Same s → ∀ t ∈ f r, ∃ u ∈ f s, t.Same u) (rows : Relation) :
    distinct ((distinct rows).flatMap f) = distinct (rows.flatMap f) := by
  induction rows using List.reverseRecOn with
  | nil => rfl
  | append_singleton rows row ih =>
    rw [distinct_concat, List.flatMap_append, List.flatMap_singleton]
    split
    · rw [List.flatMap_append, List.flatMap_singleton]
      exact distinct_append_congr ih rfl
    · next hrepeated =>
      -- Each row that comes from a repeated row is the same as one that came before.
      simp only [not_forall, not_not] at hrepeated
      obtain ⟨r, hr, hsame⟩ := hrepeated
      have hadded : ∀ t ∈ f row, ∃ u ∈ rows.flatMap f, t.Same u := fun t ht => by
        obtain ⟨u, hu, hsame⟩ := hf hsame t ht
        exact ⟨u, List.mem_flatMap.mpr ⟨r, hr, hu⟩, hsame⟩
      rw [ih]
      exact (union_eq_distinct hadded).symm

theorem distinct_distinct_join (a c : Relation) (x y : String) :
    distinct (join (distinct a) c x y) = distinct (a.join c x y) := by
  have hrows (rows : Relation) : (rows.flatMap fun l => join [l] c x y) = rows.join c x y :=
    List.flatMap_congr fun l _ => List.flatMap_singleton _ l
  rw [← hrows, ← hrows]
  refine distinct_flatMap_distinct (fun {r s} hsame t ht => ?_) a
  exact exists_same_of_mem_join (by simpa using hsame) (fun r hr => ⟨r, hr, rfl⟩) ht

section Keys

variable {a b : Relation} {key : List (String × Value)}

theorem map_key_subset_iff :
    a.map Row.key ⊆ b.map Row.key ↔ ∀ r ∈ a, ∃ s ∈ b, r.Same s := by
  constructor
  · intro h r hr
    obtain ⟨s, hs, hkey⟩ := List.mem_map.mp (h (List.mem_map_of_mem hr))
    exact ⟨s, hs, hkey.symm⟩
  · intro h key hkey
    obtain ⟨r, hr, rfl⟩ := List.mem_map.mp hkey
    obtain ⟨s, hs, hsame⟩ := h r hr
    exact List.mem_map.mpr ⟨s, hs, hsame.symm⟩

theorem mem_map_key_distinct : key ∈ (distinct a).map Row.key ↔ key ∈ a.map Row.key := by
  refine ⟨fun h => ?_, fun h => ?_⟩
  · exact List.map_subset Row.key (fun r hr => mem_of_mem_distinct hr) h
  · refine map_key_subset_iff.mpr (fun r hr => ?_) h
    obtain ⟨s, hs, hsame⟩ := exists_same_of_mem hr
    exact ⟨s, hs, hsame.symm⟩

theorem mem_map_key_join_distinct (c a : Relation) (x y : String) :
    key ∈ (c.join (distinct a) x y).map Row.key ↔ key ∈ (c.join a x y).map Row.key := by
  have hself : ∀ l ∈ c, ∃ l' ∈ c, l.Same l' := fun l hl => ⟨l, hl, rfl⟩
  refine ⟨fun h => ?_, fun h => ?_⟩
  · refine map_key_subset_iff.mpr (fun row hrow => exists_same_of_mem_join hself ?_ hrow) h
    exact fun r hr => ⟨r, mem_of_mem_distinct hr, rfl⟩
  · refine map_key_subset_iff.mpr (fun row hrow => exists_same_of_mem_join hself ?_ hrow) h
    exact map_key_subset_iff.mp fun key => mem_map_key_distinct.mpr

theorem mem_join_append {row : Row} {c a b : Relation} {x y : String} :
    row ∈ c.join (a ++ b) x y ↔ row ∈ c.join a x y ∨ row ∈ c.join b x y := by
  simp only [mem_join, List.mem_append]
  grind

end Keys

/-- A union may be made before or after a join, if repetitions are dropped in the end: on the left
side with the same result, on the right side with the same keys. -/
theorem join_union (a b c : Relation) (x y : String) :
    ((a.union b).join c x y).union [] = (a.join c x y).union (b.join c x y) ∧
      ∀ key, key ∈ ((c.join (a.union b) x y).union []).map Row.key ↔
        key ∈ ((c.join a x y).union (c.join b x y)).map Row.key := by
  constructor
  · rw [union_nil, union, distinct_distinct_join, join_append, union]
  · intro key
    rw [union_nil, mem_map_key_distinct, union, mem_map_key_join_distinct, union,
      mem_map_key_distinct]
    simp only [List.mem_map, mem_join_append, List.mem_append]

theorem join_union_pairing :
    let one : Value := .number (.ofInt 1)
    let a : Relation := [.ofList [("x", one)], .ofList [("x", .bool true)]]
    let b : Relation := [.ofList [("x", one)], .ofList [("x", .text "s")]]
    let c : Relation := [.ofList [("x", .text "s")], .ofList [("x", one)], .ofList [("x", one)]]
    (a.union b).length = 3 ∧ ((a.union b).join c "x" "x").length = 3 ∧
      ((a.join c "x" "x").union (b.join c "x" "x")).length = 2 ∧
      ((a.union b).join c "x" "x").union [] = (a.join c "x" "x").union (b.join c "x" "x") ∧
      ∀ key, key ∈ ((c.join (a.union b) "x" "x").union []).map Row.key ↔
        key ∈ ((c.join a "x" "x").union (c.join b "x" "x")).map Row.key := by
  intro one a b c
  exact ⟨by decide +kernel, by decide +kernel, by decide +kernel, join_union a b c "x" "x"⟩

end Relation

end RelTrace
