import Mathlib.Data.Multiset.Bind
import RelTrace.Proofs.Relation.Identity
import RelTrace.Proofs.Relation.Join

/-!
# Exchanged joins

A join merges the pairs of rows whose join values agree. With the operands exchanged it comes to the
same pairs, in another order and turned around. The two rows that a pair is merged to have the same
attributes and may differ only where both rows of the pair have a value: there the row that was on
the right wins.

## Main definitions

* `Relation.pairs`: the pairs of rows that a join merges.
* `Keyed.IsExchange`: what two sides are merged to in either order.
* `Row.AgreesWith`: the rows have equal values under the names of both.
-/

namespace RelTrace

namespace Keyed

variable {α : Type} {k l : Keyed α} {name : String}

/-- Under the names of both sides, `m` has the entries of `l` and `n` those of `k`. In all else `m`
and `n` coincide. -/
structure IsExchange (m n k l : Keyed α) : Prop where
  mem_names_iff : ∀ name, name ∈ m.names ↔ name ∈ n.names
  find?_shared : ∀ name, name ∈ k.names → name ∈ l.names →
    m.find? name = l.find? name ∧ n.find? name = k.find? name
  find?_other : ∀ name, ¬(name ∈ k.names ∧ name ∈ l.names) → m.find? name = n.find? name

theorem mem_names_merge :
    name ∈ (k.merge l).names ↔ name ∈ k.names ∨ name ∈ l.names := by
  grind [names_merge]

theorem find?_merge_of_mem (h : name ∈ l.names) : (k.merge l).find? name = l.find? name := by
  obtain ⟨a, ha⟩ := mem_names_iff.mp h
  rw [find?_merge, ha, Option.some_or]

theorem find?_merge_of_not_mem (h : name ∉ l.names) :
    (k.merge l).find? name = k.find? name := by
  rw [find?_merge, find?_eq_none_iff.mpr h, Option.none_or]

theorem isExchange_merge (k l : Keyed α) : IsExchange (k.merge l) (l.merge k) k l where
  mem_names_iff name := by simp only [mem_names_merge, or_comm]
  find?_shared name hk hl := ⟨find?_merge_of_mem hl, find?_merge_of_mem hk⟩
  find?_other name hshared := by
    by_cases hk : name ∈ k.names
    · have hl : name ∉ l.names := fun hl => hshared ⟨hk, hl⟩
      rw [find?_merge_of_not_mem hl, find?_merge_of_mem hk]
    · rw [find?_merge_of_not_mem hk, find?_merge, find?_eq_none_iff.mpr hk, Option.or_none]

end Keyed

namespace Row

variable {l r : Row}

/-- The rows have equal values under the names of both. -/
def AgreesWith (l r : Row) : Prop :=
  ∀ name v w, l.find? name = some v → r.find? name = some w → v.equal w

theorem agreesWith_iff : l.AgreesWith r ↔ ∀ e ∈ l.entries, ∀ w ∈ r.find? e.1, e.2.equal w := by
  constructor
  · intro h e he w hw
    exact h e.1 e.2 w (Keyed.find?_eq_some_iff.mpr he) hw
  · intro h name v w hv hw
    exact h (name, v) (Keyed.find?_eq_some_iff.mp hv) w hw

instance : DecidableRel AgreesWith := fun _ _ => decidable_of_iff' _ agreesWith_iff

/-- Rows that agree are merged to rows that count as the same. -/
theorem AgreesWith.same_merge (h : l.AgreesWith r) : Same (l.merge r) (r.merge l) := by
  have hexchange := Keyed.isExchange_merge l r
  apply same_iff_map_find?.mpr
  intro name
  by_cases hshared : name ∈ l.names ∧ name ∈ r.names
  · obtain ⟨v, hv⟩ := Keyed.mem_names_iff.mp hshared.1
    obtain ⟨w, hw⟩ := Keyed.mem_names_iff.mp hshared.2
    obtain ⟨hm, hn⟩ := hexchange.find?_shared name hshared.1 hshared.2
    have halike : w.Alike v := .inl (Value.equal_comm w v ▸ h name v w hv hw)
    rw [hm, hn, hv, hw, Option.map_some, Option.map_some, Value.unsignedZero_eq_iff.mpr halike]
  · rw [hexchange.find?_other name hshared]

end Row

theorem map_swap_product_perm {α β : Type} (l : List α) (r : List β) :
    ((l ×ˢ r).map Prod.swap).Perm (r ×ˢ l) := by
  apply Multiset.coe_eq_coe.mp
  rw [← Multiset.map_coe, ← Multiset.coe_product, Multiset.map_swap_product, Multiset.coe_product]

namespace Relation

/-- The pairs of rows that a join merges, in the order in which it comes to them. -/
def pairs (left right : Relation) (leftName rightName : String) : List (Row × Row) :=
  (left ×ˢ right).filter fun p => agree (p.1.find? leftName) (p.2.find? rightName)

section Pairs

variable {a b : Relation} {x y : String} {p : Row × Row}

theorem mem_pairs :
    p ∈ a.pairs b x y ↔ p.1 ∈ a ∧ p.2 ∈ b ∧ agree (p.1.find? x) (p.2.find? y) := by
  cases p
  simp [pairs, and_assoc]

theorem join_eq_map_pairs (a b : Relation) (x y : String) :
    a.join b x y = (a.pairs b x y).map fun p => p.1.merge p.2 := by
  simp only [pairs, join, SProd.sprod, List.product, List.filter_flatMap, List.map_flatMap,
    List.filter_map, List.map_map]
  rfl

theorem agree_comm (v w : Option Value) : agree v w = agree w v := by
  cases v <;> cases w <;> simp [agree, Value.equal_comm]

/-- The exchanged join comes to the same pairs, turned around. -/
theorem map_swap_pairs_perm (a b : Relation) (x y : String) :
    ((a.pairs b x y).map Prod.swap).Perm (b.pairs a y x) := by
  have hagree : (fun p : Row × Row => agree (p.1.find? x) (p.2.find? y)) =
      (fun p : Row × Row => agree (p.1.find? y) (p.2.find? x)) ∘ Prod.swap := by
    funext p
    exact agree_comm _ _
  rw [pairs, hagree, ← List.filter_map]
  exact (map_swap_product_perm a b).filter _

/-- The rows of the exchanged join, from the pairs of the join. -/
theorem join_perm_map_pairs (a b : Relation) (x y : String) :
    (b.join a y x).Perm ((a.pairs b x y).map fun p => p.2.merge p.1) := by
  have hmerged := (map_swap_pairs_perm a b x y).map fun p => p.1.merge p.2
  rw [List.map_map, ← join_eq_map_pairs] at hmerged
  exact hmerged.symm

end Pairs

/-- With the operands exchanged, a join merges the same pairs of rows, each turned around, so it has
as many rows. The two rows of a pair may differ only under names of both operands, where the right
operand of each join wins. If the pairs agree under these names, both joins have the same rows up to
their order, counted with repetitions. -/
theorem join_exchange (a b : Relation) (x y : String) :
    (a.join b x y).length = (b.join a y x).length ∧
      a.join b x y = (a.pairs b x y).map (fun p => p.1.merge p.2) ∧
      b.join a y x = (b.pairs a y x).map (fun p => p.1.merge p.2) ∧
      ((a.pairs b x y).map Prod.swap).Perm (b.pairs a y x) ∧
      (∀ p, p ∈ a.pairs b x y ↔ p.1 ∈ a ∧ p.2 ∈ b ∧ agree (p.1.find? x) (p.2.find? y)) ∧
      (∀ p ∈ a.pairs b x y, Keyed.IsExchange (p.1.merge p.2) (p.2.merge p.1) p.1 p.2) ∧
      ((∀ p ∈ a.pairs b x y, p.1.AgreesWith p.2) →
        ((a.join b x y).map Row.key).Perm ((b.join a y x).map Row.key)) := by
  have hperm := join_perm_map_pairs a b x y
  refine ⟨?_, join_eq_map_pairs a b x y, join_eq_map_pairs b a y x, map_swap_pairs_perm a b x y,
    fun p => mem_pairs, fun p _ => Keyed.isExchange_merge p.1 p.2, fun hagrees => ?_⟩
  · rw [hperm.length_eq, join_eq_map_pairs, List.length_map, List.length_map]
  · have hkeys : (a.join b x y).map Row.key =
        ((a.pairs b x y).map fun p => p.2.merge p.1).map Row.key := by
      rw [join_eq_map_pairs, List.map_map, List.map_map]
      exact List.map_congr_left fun p hp => (hagrees p hp).same_merge
    rw [hkeys]
    exact (hperm.map Row.key).symm

theorem join_exchange_agreeing :
    let zero : Value := .number .zero
    let negativeZero : Value := .number (.finite true .zero)
    let a : Relation :=
      [.ofList [("x", zero), ("s", .text "t")], .ofList [("s", .bool true), ("x", .text "u")],
        .ofList [("z", zero)]]
    let b : Relation :=
      [.ofList [("s", .bool true), ("y", .text "u"), ("w", zero)],
        .ofList [("z", negativeZero), ("x", .bool true)], .ofList [("y", negativeZero)]]
    (∀ p ∈ a.pairs b "x" "y", p.1.AgreesWith p.2) ∧ (a.join b "x" "y").length = 3 ∧
      ((a.join b "x" "y").map Row.key).Perm ((b.join a "y" "x").map Row.key) := by
  intro zero negativeZero a b
  have hagrees : ∀ p ∈ a.pairs b "x" "y", p.1.AgreesWith p.2 := by decide +kernel
  obtain ⟨-, -, -, -, -, -, hkeys⟩ := join_exchange a b "x" "y"
  exact ⟨hagrees, by decide +kernel, hkeys hagrees⟩

end Relation

end RelTrace
