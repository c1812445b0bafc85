import Mathlib.Data.List.Infix
import RelTrace.Text.Blank
import RelTrace.Text.Cut

/-!
# Where a mark can be

A text is cut unless the mark stands nowhere in it, as it does where a character of the mark is
lacking. It is cut where the first character of the mark first appears. A run of characters of one
class ends at the first character outside of it.
-/

namespace RelTrace.Text

section Runs

variable {α : Type} {p : α → Bool} {run rest : List α}

theorem takeWhile_append_of_head? (hrun : ∀ c ∈ run, p c)
    (hrest : ∀ c ∈ rest.head?, p c = false) : (run ++ rest).takeWhile p = run := by
  rw [List.takeWhile_append_of_pos hrun]
  cases rest with
  | nil => simp
  | cons c rest => simp [hrest c rfl]

theorem dropWhile_append_of_head? (hrun : ∀ c ∈ run, p c)
    (hrest : ∀ c ∈ rest.head?, p c = false) : (run ++ rest).dropWhile p = rest := by
  rw [List.dropWhile_append_of_pos hrun]
  cases rest with
  | nil => rfl
  | cons c rest => simp [hrest c rfl]

end Runs

variable {mark cs before after : List Char} {m : Char}

theorem cut?_eq_none_iff : cut? mark cs = none ↔ ¬ mark <:+: cs := by
  induction cs with
  | nil => grind [cut?]
  | cons c cs ih =>
    rw [cut?, List.infix_cons_iff, ← List.isPrefixOf_iff_prefix]
    split <;> simp [*]

theorem cut?_eq_none (hm : m ∈ mark) (hcs : m ∉ cs) : cut? mark cs = none :=
  cut?_eq_none_iff.mpr fun h => hcs (h.subset hm)

theorem cut?_append (hbefore : m ∉ before) :
    cut? (m :: mark) (before ++ (m :: mark) ++ after) = some (before, after) := by
  induction before with
  | nil => simp [cut?]
  | cons c before ih =>
    have hc : (m == c) = false := beq_false_of_ne fun h =>
      hbefore (h ▸ List.mem_cons_self)
    rw [List.cons_append, List.cons_append, cut?, List.isPrefixOf, hc, Bool.false_and,
      if_neg Bool.false_ne_true, ih fun h => hbefore (List.mem_cons_of_mem c h)]
    rfl

theorem soleCut?_eq_none (hm : m ∈ mark) (hcs : m ∉ cs) : soleCut? mark cs = none := by
  rw [soleCut?, cut?_eq_none hm hcs]

theorem soleCut?_append (hbefore : m ∉ before) (hafter : m ∉ after) :
    soleCut? (m :: mark) (before ++ (m :: mark) ++ after) = some (before, after) := by
  rw [soleCut?, cut?_append hbefore]
  simp [cut?_eq_none List.mem_cons_self hafter]

theorem cut?_singleton_eq_none_iff : cut? [m] cs = none ↔ m ∉ cs := by
  rw [cut?_eq_none_iff, List.singleton_infix_iff]

/-- A mark of one character stands exactly once where the character is counted once. -/
theorem isSome_soleCut?_singleton_iff : (soleCut? [m] cs).isSome ↔ cs.count m = 1 := by
  by_cases hmem : m ∈ cs
  · obtain ⟨before, after, rfl, hbefore⟩ := List.eq_append_cons_of_mem hmem
    rw [List.append_cons, soleCut?, cut?_append hbefore, ← List.append_cons, List.count_append,
      List.count_cons_self, List.count_eq_zero.mpr hbefore]
    by_cases hafter : m ∈ after <;>
      simp [cut?_singleton_eq_none_iff, hafter, List.count_eq_zero]
  · rw [soleCut?_eq_none List.mem_cons_self hmem, List.count_eq_zero.mpr hmem]
    simp

end RelTrace.Text
