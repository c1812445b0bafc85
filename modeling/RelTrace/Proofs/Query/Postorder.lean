import RelTrace.Query.Expr

/-!
# Post-order

The nodes of a tree with every node after its operands. The nodes of a subtree stand next to each
other there, in the post-order of the subtree itself.

## Main definitions

* `BlockAt`: a list that stands within another one, at a given place.
* `Expr.postorder`: the nodes with their depths.
* `Expr.Occurs`: a subtree with its depth and the number of nodes before its first.
* `Expr.operands`: the subtrees one level below the root.
-/

namespace RelTrace

/-- The block stands within the whole list and begins at the given place. -/
def BlockAt {α : Type} (start : Nat) (block whole : List α) : Prop :=
  ∃ before after, whole = before ++ block ++ after ∧ before.length = start

namespace BlockAt

variable {α β : Type} {start : Nat} {block xs ys : List α}

theorem refl (xs : List α) : BlockAt 0 xs xs := ⟨[], [], by simp, rfl⟩

theorem append_right (h : BlockAt start block xs) (ys : List α) :
    BlockAt start block (xs ++ ys) := by
  obtain ⟨before, after, rfl, hlen⟩ := h
  exact ⟨before, after ++ ys, by simp, hlen⟩

theorem getElem? (h : BlockAt start block xs) {i : Nat} (hi : i < block.length) :
    xs[start + i]? = block[i]? := by
  obtain ⟨before, after, rfl, rfl⟩ := h
  rw [List.append_assoc, List.getElem?_append_right (by omega),
    List.getElem?_append_left (by omega), Nat.add_sub_cancel_left]

theorem append_left (h : BlockAt start block ys) (xs : List α) :
    BlockAt (xs.length + start) block (xs ++ ys) := by
  obtain ⟨before, after, rfl, hlen⟩ := h
  exact ⟨xs ++ before, after, by simp, by simp [hlen]⟩

theorem map (h : BlockAt start block xs) (f : α → β) : BlockAt start (block.map f) (xs.map f) := by
  obtain ⟨before, after, rfl, hlen⟩ := h
  exact ⟨before.map f, after.map f, by simp, by simp [hlen]⟩

theorem zipIdx (h : BlockAt start block xs) (index : Nat) :
    BlockAt start (block.zipIdx (index + start)) (xs.zipIdx index) := by
  obtain ⟨before, after, rfl, rfl⟩ := h
  refine ⟨before.zipIdx index, after.zipIdx (index + (before ++ block).length), ?_, by simp⟩
  simp [List.zipIdx_append, Nat.add_assoc]

end BlockAt

namespace Expr

/-- The nodes of a tree whose root has the given depth, each after its operands. -/
def postorder (depth : Nat) : Expr → List (Nat × Expr)
  | relation name s => [(depth, relation name s)]
  | project attributes e s => e.postorder (depth + 1) ++ [(depth, project attributes e s)]
  | select condition e s => e.postorder (depth + 1) ++ [(depth, select condition e s)]
  | union l r s => l.postorder (depth + 1) ++ r.postorder (depth + 1) ++ [(depth, union l r s)]
  | join condition l r s =>
    l.postorder (depth + 1) ++ r.postorder (depth + 1) ++ [(depth, join condition l r s)]

/-- The subtree has the given depth in the tree, and so many nodes come before its own. -/
inductive Occurs (s : Expr) : Nat → Nat → Expr → Prop where
  | here : Occurs s 0 0 s
  | project {d i attributes e span} (h : Occurs s d i e) :
      Occurs s (d + 1) i (.project attributes e span)
  | select {d i condition e span} (h : Occurs s d i e) :
      Occurs s (d + 1) i (.select condition e span)
  | unionLeft {d i l r span} (h : Occurs s d i l) : Occurs s (d + 1) i (.union l r span)
  | unionRight {d i l r span} (h : Occurs s d i r) :
      Occurs s (d + 1) (l.nodeCount + i) (.union l r span)
  | joinLeft {d i condition l r span} (h : Occurs s d i l) :
      Occurs s (d + 1) i (.join condition l r span)
  | joinRight {d i condition l r span} (h : Occurs s d i r) :
      Occurs s (d + 1) (l.nodeCount + i) (.join condition l r span)

/-- The operands of a node. Each comes with the number of nodes before its own. -/
def operands : Expr → List (Nat × Expr)
  | relation _ _ => []
  | project _ e _ | select _ e _ => [(0, e)]
  | union l r _ | join _ l r _ => [(0, l), (l.nodeCount, r)]

/-- A property that a node has whenever its operands have it holds of every tree. -/
@[elab_as_elim]
theorem operands_induction {motive : Expr → Prop}
    (step : ∀ e, (∀ p ∈ e.operands, motive p.2) → motive e) (e : Expr) : motive e := by
  induction e with
  | relation => exact step _ (by simp [operands])
  | project _ _ _ ih | select _ _ _ ih => exact step _ (by simpa [operands] using ih)
  | union _ _ _ ihl ihr | join _ _ _ _ ihl ihr =>
    exact step _ (by simpa [operands] using ⟨ihl, ihr⟩)

theorem occurs_of_mem_operands {e s : Expr} {i : Nat} (h : (i, s) ∈ e.operands) :
    Occurs s 1 i e := by
  cases e with
  | relation => cases h
  | project | select =>
    cases List.mem_singleton.mp h
    constructor
    exact .here
  | union =>
    rcases List.mem_cons.mp h with hl | hr
    · cases hl
      exact .unionLeft .here
    · cases List.mem_singleton.mp hr
      exact .unionRight .here
  | join =>
    rcases List.mem_cons.mp h with hl | hr
    · cases hl
      exact .joinLeft .here
    · cases List.mem_singleton.mp hr
      exact .joinRight .here

theorem nodeCount_pos (e : Expr) : 0 < e.nodeCount := by
  cases e <;> simp only [nodeCount] <;> omega

@[simp] theorem length_postorder (depth : Nat) (e : Expr) :
    (e.postorder depth).length = e.nodeCount := by
  induction e generalizing depth with
  | relation => rfl
  | project _ _ _ ih | select _ _ _ ih =>
    simp only [postorder, nodeCount, List.length_append, List.length_singleton, ih]
    omega
  | union _ _ _ ihl ihr | join _ _ _ _ ihl ihr =>
    simp only [postorder, nodeCount, List.length_append, List.length_singleton, ihl, ihr]
    omega

/-- The root comes last. -/
theorem exists_postorder_eq_concat (depth : Nat) (e : Expr) :
    ∃ earlier, e.postorder depth = earlier ++ [(depth, e)] ∧ earlier.length + 1 = e.nodeCount := by
  have hlast : ∃ earlier, e.postorder depth = earlier ++ [(depth, e)] := by
    cases e with
    | relation => exact ⟨[], rfl⟩
    | _ => exact ⟨_, rfl⟩
  obtain ⟨earlier, h⟩ := hlast
  refine ⟨earlier, h, ?_⟩
  rw [← length_postorder depth e, h, List.length_append, List.length_singleton]

theorem mem_postorder_self (depth : Nat) (e : Expr) : (depth, e) ∈ e.postorder depth := by
  obtain ⟨earlier, h, -⟩ := exists_postorder_eq_concat depth e
  simp [h]

/-- The nodes of a subtree stand together. -/
theorem Occurs.postorder {s e : Expr} {d i : Nat} (h : Occurs s d i e) (depth : Nat) :
    BlockAt i (s.postorder (depth + d)) (e.postorder depth) := by
  induction h generalizing depth with
  | here => exact .refl _
  | @project d _ _ _ _ _ ih | @select d _ _ _ _ _ ih =>
    rw [show depth + (d + 1) = depth + 1 + d by omega]
    exact (ih (depth + 1)).append_right _
  | @unionLeft d _ _ _ _ _ ih | @joinLeft d _ _ _ _ _ _ ih =>
    rw [show depth + (d + 1) = depth + 1 + d by omega]
    exact ((ih (depth + 1)).append_right _).append_right _
  | @unionRight d _ l _ _ _ ih | @joinRight d _ _ l _ _ _ ih =>
    rw [show depth + (d + 1) = depth + 1 + d by omega, ← length_postorder (depth + 1) l]
    exact ((ih (depth + 1)).append_left _).append_right _

theorem Occurs.trans {s m e : Expr} {d i d' i' : Nat} (h : Occurs s d i m)
    (h' : Occurs m d' i' e) : Occurs s (d + d') (i' + i) e := by
  induction h' with
  | here => simpa using h
  | project _ ih => exact .project ih
  | select _ ih => exact .select ih
  | unionLeft _ ih => exact .unionLeft ih
  | unionRight _ ih => rw [Nat.add_assoc]; exact .unionRight ih
  | joinLeft _ ih => exact .joinLeft ih
  | joinRight _ ih => rw [Nat.add_assoc]; exact .joinRight ih

/-- The root of a subtree is the last of its nodes. -/
theorem Occurs.getElem?_postorder {s e : Expr} {d i j : Nat} (h : Occurs s d i e) (depth : Nat)
    (hj : j + 1 = i + s.nodeCount) : (e.postorder depth)[j]? = some (depth + d, s) := by
  obtain ⟨earlier, hroot, hlen⟩ := exists_postorder_eq_concat (depth + d) s
  obtain rfl : j = i + earlier.length := by omega
  rw [(h.postorder depth).getElem? (by rw [length_postorder]; omega), hroot,
    List.getElem?_concat_length]

theorem getElem?_append_cases {α : Type} {xs ys : List α} {j : Nat} {a : α}
    (h : (xs ++ ys)[j]? = some a) :
    xs[j]? = some a ∨ ∃ k, j = xs.length + k ∧ ys[k]? = some a := by
  by_cases hj : j < xs.length
  · rw [List.getElem?_append_left hj] at h
    exact .inl h
  · rw [List.getElem?_append_right (by omega)] at h
    exact .inr ⟨j - xs.length, by omega, h⟩

theorem getElem?_concat_cases {α : Type} {xs : List α} {j : Nat} {a b : α}
    (h : (xs ++ [b])[j]? = some a) : xs[j]? = some a ∨ j = xs.length ∧ a = b := by
  rcases getElem?_append_cases h with hbefore | ⟨k, rfl, hlast⟩
  · exact .inl hbefore
  · obtain ⟨rfl, rfl⟩ := by simpa [List.getElem?_singleton] using hlast
    exact .inr ⟨rfl, rfl⟩

/-- A node of a tree is the root or a node of an operand. -/
theorem getElem?_postorder_cases {e node : Expr} {depth d j : Nat}
    (h : (e.postorder depth)[j]? = some (d, node)) :
    (node = e ∧ d = depth ∧ j + 1 = e.nodeCount) ∨
      ∃ i s k, (i, s) ∈ e.operands ∧ j = i + k ∧ (s.postorder (depth + 1))[k]? = some (d, node) := by
  obtain ⟨earlier, heq, hlen⟩ := exists_postorder_eq_concat depth e
  rw [heq] at h
  rcases getElem?_concat_cases h with hbelow | ⟨rfl, hroot⟩
  · right
    cases e with
    | relation =>
      obtain rfl := List.length_eq_zero_iff.mp (Nat.succ_inj.mp hlen)
      cases hbelow
    | project _ s _ | select _ s _ =>
      obtain rfl := (List.append_inj' heq rfl).1
      exact ⟨0, s, j, List.mem_singleton_self _, (Nat.zero_add j).symm, hbelow⟩
    | union l r _ | join _ l r _ =>
      obtain rfl := (List.append_inj' heq rfl).1
      rcases getElem?_append_cases hbelow with hleft | ⟨k, rfl, hright⟩
      · exact ⟨0, l, j, List.mem_cons_self, (Nat.zero_add j).symm, hleft⟩
      · rw [length_postorder]
        exact ⟨l.nodeCount, r, k, List.mem_cons_of_mem _ List.mem_cons_self, rfl, hright⟩
  · left
    obtain ⟨rfl, rfl⟩ := hroot
    exact ⟨rfl, rfl, hlen⟩

/-- Every node is the root of a subtree, whose other nodes come directly before it. -/
theorem exists_occurs_of_getElem?_postorder {e node : Expr} {depth d j : Nat}
    (h : (e.postorder depth)[j]? = some (d, node)) :
    ∃ d' i, Occurs node d' i e ∧ d = depth + d' ∧ j + 1 = i + node.nodeCount := by
  induction e using operands_induction generalizing depth j with
  | step e ih =>
    rcases getElem?_postorder_cases h with ⟨rfl, rfl, hj⟩ | ⟨i, s, k, hs, rfl, hk⟩
    · exact ⟨0, 0, .here, rfl, by omega⟩
    · obtain ⟨d', i', hoccurs, rfl, hplace⟩ := ih _ hs hk
      exact ⟨d' + 1, i + i', hoccurs.trans (occurs_of_mem_operands hs), by omega, by omega⟩

/-- No tree is deeper than it has nodes. -/
theorem Occurs.depth_lt {s e : Expr} {d i : Nat} (h : Occurs s d i e) : d < e.nodeCount := by
  induction h with
  | here => exact s.nodeCount_pos
  | project _ ih | select _ ih | unionLeft _ ih | unionRight _ ih | joinLeft _ ih | joinRight _ ih =>
    rw [nodeCount]
    omega

/-- The nodes of a subtree are nodes of the whole. -/
theorem postorder_subset_of_mem {e : Expr} {depth : Nat} {node : Nat × Expr}
    (h : node ∈ e.postorder depth) : node.2.postorder node.1 ⊆ e.postorder depth := by
  obtain ⟨j, hj⟩ := List.mem_iff_getElem?.mp h
  obtain ⟨d, i, hoccurs, hdepth, -⟩ := exists_occurs_of_getElem?_postorder hj
  obtain ⟨before, after, heq, -⟩ := hoccurs.postorder depth
  rw [hdepth, heq]
  intro x hx
  exact List.mem_append_left after (List.mem_append_right before hx)

end Expr

end RelTrace
