import Mathlib.Data.List.Induction
import Mathlib.Data.List.Nodup
import RelTrace.Relation.Algebra

/-!
# Rows without repetition

A union is the concatenation of its operands without the rows that repeat an earlier one. What
stands in it of an operand does not depend on repetitions inside the operands, so unions may be
regrouped.

## Main definitions

* `Row.Same`: the rows have one identity.
* `Row.atoms`: what counts of the entries of a row.
* `Relation.firstSeen`: the rows at the places before which no row is the same.
-/

namespace RelTrace

namespace Row

/-- The rows have the same identity. -/
def Same (r s : Row) : Prop := key r = key s

instance : DecidableRel Same := fun r s => inferInstanceAs (Decidable (key r = key s))

/-- What counts of the entries: the sign of a zero does not. -/
def atoms (r : Row) : List (String × Value) := r.entries.map fun (name, v) => (name, v.unsignedZero)

theorem nodup_atoms (r : Row) : ((atoms r).map Prod.fst).Nodup := by
  simpa [atoms, Function.comp_def] using r.nodup

theorem key_perm (r : Row) : (key r).Perm (atoms r) := List.mergeSort_perm _ _

theorem pairwise_key (r : Row) : (key r).Pairwise fun a b => a.1 ≤ b.1 := by
  have hsorted := @List.pairwise_mergeSort _ (fun a b : String × Value => decide (a.1 ≤ b.1))
    (fun _ _ _ => by simpa using String.le_trans) (fun _ _ => by simpa using String.le_total _ _)
    (atoms r)
  simpa [key, atoms] using hsorted

/-- Rows are the same up to the order of their attributes and the sign of zeros. -/
theorem same_iff_perm {r s : Row} : Same r s ↔ (atoms r).Perm (atoms s) := by
  refine ⟨fun h => (key_perm r).symm.trans ((List.Perm.of_eq h).trans (key_perm s)), fun h => ?_⟩
  have hperm : (key r).Perm (key s) := (key_perm r).trans (h.trans (key_perm s).symm)
  refine hperm.eq_of_pairwise (fun a b ha hb hab hba => ?_) (pairwise_key r) (pairwise_key s)
  have hnames := (List.Perm.nodup_iff ((key_perm r).map Prod.fst)).mpr (nodup_atoms r)
  exact List.inj_on_of_nodup_map hnames ha (hperm.mem_iff.mpr hb) (String.le_antisymm hab hba)

end Row

theorem mem_of_mem_firsts {κ α : Type} [DecidableEq κ] {e : κ × α} {es : List (κ × α)}
    (h : e ∈ firsts es) : e ∈ es := by
  induction es with
  | nil => exact h
  | cons f es ih =>
    rcases List.mem_cons.mp h with rfl | h
    · exact List.mem_cons_self
    · exact List.mem_cons_of_mem f (ih (List.mem_filter.mp h).1)

namespace Relation

/-- The rows at the places before which no row is the same. -/
def firstSeen (rows : Relation) : Relation :=
  (rows.zipIdx.filter fun (row, i) => (rows.take i).all fun r => ¬ row.Same r).map Prod.fst

@[simp] theorem distinct_nil : distinct [] = [] := rfl

theorem distinct_cons (row : Row) (rows : Relation) :
    distinct (row :: rows) = row :: (distinct rows).filter fun r => ¬ r.Same row := by
  have hkey : ∀ e ∈ firsts (rows.map fun row => (Row.key row, row)), e.1 = Row.key e.2 := by
    intro e he
    obtain ⟨r, -, rfl⟩ := List.mem_map.mp (mem_of_mem_firsts he)
    rfl
  rw [distinct, List.map_cons, firsts, List.map_cons, distinct, List.filter_map]
  congr 2
  refine List.filter_congr fun e he => ?_
  rw [hkey e he]
  rfl

theorem mem_of_mem_distinct {row : Row} {rows : Relation} (h : row ∈ distinct rows) :
    row ∈ rows := by
  obtain ⟨e, he, rfl⟩ := List.mem_map.mp h
  obtain ⟨r, hr, rfl⟩ := List.mem_map.mp (mem_of_mem_firsts he)
  exact hr

theorem exists_same_of_mem {row : Row} {rows : Relation} (h : row ∈ rows) :
    ∃ r ∈ distinct rows, r.Same row := by
  induction rows with
  | nil => cases h
  | cons first rows ih =>
    rw [distinct_cons]
    by_cases hfirst : first.Same row
    · exact ⟨first, List.mem_cons_self, hfirst⟩
    · have hmem : row ∈ rows := (List.mem_cons.mp h).resolve_left fun heq => hfirst (heq ▸ rfl)
      obtain ⟨r, hr, hsame⟩ := ih hmem
      -- The row that stands for the later one is not dropped for the first one.
      have hkept : ¬ r.Same first := fun hdrop => hfirst (hdrop.symm.trans hsame)
      exact ⟨r, List.mem_cons_of_mem _ (List.mem_filter.mpr ⟨hr, by simpa using hkept⟩), hsame⟩

theorem pairwise_distinct (rows : Relation) : (distinct rows).Pairwise fun r s => ¬ r.Same s := by
  induction rows with
  | nil => exact .nil
  | cons row rows ih =>
    rw [distinct_cons, List.pairwise_cons]
    refine ⟨fun r hr hsame => ?_, ih.filter _⟩
    have hkept : ¬ r.Same row := by simpa using (List.mem_filter.mp hr).2
    exact hkept hsame.symm

theorem distinct_of_pairwise {rows : Relation} (h : rows.Pairwise fun r s => ¬ r.Same s) :
    distinct rows = rows := by
  induction h with
  | nil => rfl
  | @cons row rows hrow _ ih =>
    rw [distinct_cons, ih, List.filter_eq_self.mpr]
    intro r hr
    simpa using fun hsame : r.Same row => hrow r hr hsame.symm

@[simp] theorem distinct_distinct (rows : Relation) : distinct (distinct rows) = distinct rows :=
  distinct_of_pairwise (pairwise_distinct rows)

/-- The second part of a list loses the rows that the first part has as well. -/
theorem distinct_append (xs ys : Relation) :
    distinct (xs ++ ys) =
      distinct xs ++ (distinct ys).filter fun s => ∀ r ∈ xs, ¬ s.Same r := by
  induction xs with
  | nil => exact (List.filter_eq_self.mpr fun s _ => by simp).symm
  | cons row xs ih =>
    rw [List.cons_append, distinct_cons, distinct_cons, ih, List.filter_append, List.filter_filter,
      List.cons_append]
    simp

/-- A row is the same as one of a list if it is the same as one that the list keeps. -/
theorem forall_distinct_not_same {s : Row} {rows : Relation} :
    (∀ r ∈ distinct rows, ¬ s.Same r) ↔ ∀ r ∈ rows, ¬ s.Same r := by
  refine ⟨fun h r hr hsame => ?_, fun h r hr => h r (mem_of_mem_distinct hr)⟩
  obtain ⟨first, hfirst, heq⟩ := exists_same_of_mem hr
  exact h first hfirst (hsame.trans heq.symm)

theorem distinct_distinct_append (xs ys : Relation) :
    distinct (distinct xs ++ ys) = distinct (xs ++ ys) := by
  simp only [distinct_append, distinct_distinct, forall_distinct_not_same]

theorem distinct_append_distinct (xs ys : Relation) :
    distinct (xs ++ distinct ys) = distinct (xs ++ ys) := by
  simp only [distinct_append, distinct_distinct]

/-- Only the distinct rows of the parts count. -/
theorem distinct_append_congr {xs xs' ys ys' : Relation} (hxs : distinct xs = distinct xs')
    (hys : distinct ys = distinct ys') : distinct (xs ++ ys) = distinct (xs' ++ ys') := by
  rw [← distinct_distinct_append, ← distinct_append_distinct, hxs, hys, distinct_append_distinct,
    distinct_distinct_append]

/-- A row that comes last is kept unless it repeats a row before it. -/
theorem distinct_concat (rows : Relation) (row : Row) :
    distinct (rows ++ [row]) =
      if ∀ r ∈ rows, ¬ row.Same r then distinct rows ++ [row] else distinct rows := by
  rw [distinct_append, distinct_cons, distinct_nil, List.filter_nil, List.filter_cons,
    List.filter_nil]
  simp only [decide_eq_true_eq]
  split <;> simp

theorem firstSeen_concat (rows : Relation) (row : Row) :
    firstSeen (rows ++ [row]) =
      if ∀ r ∈ rows, ¬ row.Same r then firstSeen rows ++ [row] else firstSeen rows := by
  have hearlier : ∀ e ∈ rows.zipIdx, (rows ++ [row]).take e.2 = rows.take e.2 := by
    rintro ⟨r, i⟩ he
    exact List.take_append_of_le_length (Nat.le_of_lt (List.snd_lt_of_mem_zipIdx he))
  have hfront := List.filter_congr fun e he => congrArg
    (fun earlier : Relation => earlier.all fun r => decide ¬ e.1.Same r) (hearlier e he)
  have hlast : (rows ++ [row]).take rows.length = rows := List.take_left
  simp only [firstSeen, List.zipIdx_append, List.filter_append, hfront, List.map_append,
    List.zipIdx_singleton, Nat.zero_add, List.filter_cons, List.filter_nil, hlast,
    List.all_eq_true, decide_eq_true_eq]
  split <;> simp

/-- Exactly the rows with no same row before them are kept. -/
theorem distinct_eq_firstSeen (rows : Relation) : distinct rows = firstSeen rows := by
  induction rows using List.reverseRecOn with
  | nil => rfl
  | append_singleton rows row ih => rw [distinct_concat, firstSeen_concat, ih]

theorem union_assoc (a b c : Relation) : (a.union b).union c = a.union (b.union c) := by
  rw [union, union, distinct_distinct_append, union, union, distinct_append_distinct,
    List.append_assoc]

/-- Rows that are all the same as rows on the left add nothing. -/
theorem union_eq_distinct {a b : Relation} (h : ∀ s ∈ b, ∃ r ∈ a, s.Same r) :
    a.union b = distinct a := by
  rw [union, distinct_append, List.filter_eq_nil_iff.mpr, List.append_nil]
  intro s hs hnew
  obtain ⟨r, hr, hsame⟩ := h s (mem_of_mem_distinct hs)
  exact of_decide_eq_true hnew r hr hsame

theorem union_self (a : Relation) : a.union a = distinct a :=
  union_eq_distinct fun s hs => ⟨s, hs, rfl⟩

theorem union_nil (a : Relation) : a.union [] = distinct a := union_eq_distinct (by simp)

end Relation

end RelTrace
