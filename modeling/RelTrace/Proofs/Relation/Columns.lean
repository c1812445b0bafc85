import Mathlib.Algebra.GroupWithZero.Nat
import Mathlib.Data.List.DropRight
import Mathlib.Data.List.Forall2
import RelTrace.Proofs.Query.Postorder
import RelTrace.Proofs.Text.Lines
import RelTrace.Relation.Grid

/-!
# Columns

A line of a table holds a cell for each column, filled up to the width of the column. Where the
cells are not longer than their columns, every cell has its place, which depends on the widths
alone. So the line tells its cells, except for the spaces at their ends, if the widths are known;
and a line of dashes tells the widths.

## Main definitions

* `Relation.barLine`: a line between bars.
* `Relation.offset`: where a column begins.
* `Relation.EqUpToSpaces`: texts that differ in nothing but the spaces at their ends.
-/

namespace RelTrace.Relation

variable {widths widths' : List Nat} {cells cells' : List String} {width k : Nat} {s t : String}

/-- The text without the spaces at its end. -/
def beforeSpaces (s : String) : List Char := s.toList.rdropWhile (· == ' ')

/-- The texts differ in nothing but the spaces at their ends. -/
def EqUpToSpaces (s t : String) : Prop := beforeSpaces s = beforeSpaces t

theorem length_pad (h : s.length ≤ width) : (pad width s).length = width := by
  rw [pad, String.length_append, String.length_ofList, List.length_replicate]
  omega

theorem toList_eq_beforeSpaces (s : String) :
    s.toList = beforeSpaces s ++ List.replicate (s.length - (beforeSpaces s).length) ' ' := by
  have hsplit : beforeSpaces s ++ s.toList.rtakeWhile (· == ' ') = s.toList :=
    List.rdropWhile_append_rtakeWhile
  have hlength := congrArg List.length hsplit
  rw [List.length_append, String.length_toList] at hlength
  have hspaces : s.toList.rtakeWhile (· == ' ') =
      List.replicate (s.length - (beforeSpaces s).length) ' ' :=
    List.eq_replicate_iff.mpr
      ⟨by omega, fun c hc => beq_iff_eq.mp (List.mem_rtakeWhile_imp (p := (· == ' ')) hc)⟩
  rw [← hspaces, hsplit]

theorem length_beforeSpaces_le (s : String) : (beforeSpaces s).length ≤ s.length := by
  have hlength := congrArg List.length (toList_eq_beforeSpaces s)
  rw [List.length_append, String.length_toList] at hlength
  omega

theorem toList_pad (h : s.length ≤ width) :
    (pad width s).toList =
      beforeSpaces s ++ List.replicate (width - (beforeSpaces s).length) ' ' := by
  have hle := length_beforeSpaces_le s
  rw [pad, String.toList_append, String.toList_ofList]
  nth_rewrite 1 [toList_eq_beforeSpaces s]
  rw [List.append_assoc, List.replicate_append_replicate]
  congr 2
  omega

theorem beforeSpaces_pad (width : Nat) (s : String) :
    beforeSpaces (pad width s) = beforeSpaces s := by
  rw [beforeSpaces, pad, String.toList_append, String.toList_ofList, List.rdropWhile,
    List.reverse_append, List.reverse_replicate, List.dropWhile_append_of_pos (by simp)]
  rfl

theorem pad_eq_pad_iff (hs : s.length ≤ width) (ht : t.length ≤ width) :
    pad width s = pad width t ↔ EqUpToSpaces s t := by
  constructor
  · intro h
    rw [EqUpToSpaces, ← beforeSpaces_pad width s, h, beforeSpaces_pad]
  · intro h
    rw [← String.toList_inj, toList_pad hs, toList_pad ht, h]

/-- No cell is longer than its column is wide. -/
def Fit (widths : List Nat) (cells : List String) : Prop :=
  List.Forall₂ (fun width s => s.length ≤ width) widths cells

theorem Fit.length_le (h : Fit widths cells) (hwidth : widths[k]? = some width)
    (hs : cells[k]? = some s) : s.length ≤ width := by
  obtain ⟨hk, rfl⟩ := List.getElem?_eq_some_iff.mp hwidth
  obtain ⟨hk', rfl⟩ := List.getElem?_eq_some_iff.mp hs
  exact h.get hk hk'

/-- The cells of a line with what stands between them. -/
def fields (widths : List Nat) (cells : List String) : List Char :=
  (List.zipWith (fun width s => ' ' :: (pad width s).toList ++ [' ', '|']) widths cells).flatten

/-- A line between bars, without its end. -/
def barLine (widths : List Nat) (cells : List String) : String :=
  "|" ++ String.join (List.zipWith (fun width s => " " ++ pad width s ++ " |") widths cells)

/-- The place of the first character behind columns of the given widths. -/
def offset (widths : List Nat) : Nat := (widths.map (· + 3)).sum + 2

theorem toList_barLine (widths : List Nat) (cells : List String) :
    (barLine widths cells).toList = '|' :: fields widths cells := by
  simp [barLine, fields, String.toList_join, List.flatMap, List.map_zipWith]

@[simp] theorem fields_cons (width : Nat) (s : String) :
    fields (width :: widths) (s :: cells) =
      ' ' :: ((pad width s).toList ++ ' ' :: '|' :: fields widths cells) := by
  simp [fields]

theorem length_fields (h : Fit widths cells) :
    (fields widths cells).length = (widths.map (· + 3)).sum := by
  induction h with
  | nil => rfl
  | cons hfit _ ih =>
    simp only [fields_cons, List.length_cons, List.length_append, String.length_toList,
      length_pad hfit, ih, List.map_cons, List.sum_cons]
    omega

theorem length_barLine (h : Fit widths cells) :
    (barLine widths cells).length = (widths.map (· + 3)).sum + 1 := by
  rw [← String.length_toList, toList_barLine, List.length_cons, length_fields h]

/-- Every cell stands where its column begins. -/
theorem blockAt_barLine (h : Fit widths cells) (hwidth : widths[k]? = some width)
    (hs : cells[k]? = some s) :
    BlockAt (offset (widths.take k)) (pad width s).toList (barLine widths cells).toList := by
  have hfields : BlockAt ((widths.take k).map (· + 3)).sum (' ' :: (pad width s).toList)
      (fields widths cells) := by
    induction h generalizing k with
    | nil => cases hs
    | @cons firstWidth first widths cells hfit _ ih =>
      cases k with
      | zero =>
        obtain rfl := Option.some.inj hwidth
        obtain rfl := Option.some.inj hs
        exact ⟨[], ' ' :: '|' :: fields widths cells, by simp, rfl⟩
      | succ k =>
        let field := ' ' :: ((pad firstWidth first).toList ++ [' ', '|'])
        have hfield : field.length = firstWidth + 3 := by
          simp [field, String.length_toList, length_pad hfit]
        simpa [hfield, field] using (ih hwidth hs).append_left field
  obtain ⟨before, after, hsplit, hlength⟩ := hfields
  refine ⟨'|' :: (before ++ [' ']), after, ?_, ?_⟩
  · rw [toList_barLine, hsplit]
    simp
  · simp [offset, hlength]

theorem fields_eq_fields_iff (h : Fit widths cells) (h' : Fit widths cells') :
    fields widths cells = fields widths cells' ↔ List.Forall₂ EqUpToSpaces cells cells' := by
  induction h generalizing cells' with
  | nil =>
    cases h'
    exact iff_of_true rfl .nil
  | @cons width s widths cells hs _ ih =>
    obtain _ | ⟨ht, hcells'⟩ := h'
    rw [fields_cons, fields_cons, List.forall₂_cons, ← pad_eq_pad_iff hs ht, ← ih hcells']
    constructor
    · intro heq
      obtain ⟨hpad, hrest⟩ := List.append_inj (List.cons.inj heq).2
        (by rw [String.length_toList, String.length_toList, length_pad hs, length_pad ht])
      exact ⟨String.toList_inj.mp hpad, (List.cons.inj (List.cons.inj hrest).2).2⟩
    · rintro ⟨hpad, hrest⟩
      rw [hpad, hrest]

/-- Lines of the same columns have the same cells, up to the spaces at their ends. -/
theorem barLine_eq_barLine_iff (h : Fit widths cells) (h' : Fit widths cells') :
    barLine widths cells = barLine widths cells' ↔ List.Forall₂ EqUpToSpaces cells cells' := by
  rw [← fields_eq_fields_iff h h', ← String.toList_inj, toList_barLine, toList_barLine,
    List.cons_inj_right]

/-- The dashes of a column. -/
def dashes (width : Nat) : String := String.ofList (List.replicate width '-')

@[simp] theorem length_dashes (width : Nat) : (dashes width).length = width := by
  simp [dashes]

theorem fit_dashes (widths : List Nat) : Fit widths (widths.map dashes) :=
  List.forall₂_map_right_iff.mpr (List.forall₂_same.mpr fun _ _ => by simp)

theorem toList_pad_dashes (width : Nat) :
    (pad width (dashes width)).toList = List.replicate width '-' := by
  simp [pad, dashes]

/-- A line of dashes tells the widths of the columns. -/
theorem widths_eq_of_rule_eq
    (h : barLine widths (widths.map dashes) = barLine widths' (widths'.map dashes)) :
    widths = widths' := by
  have hfields : fields widths (widths.map dashes) = fields widths' (widths'.map dashes) := by
    rw [← String.toList_inj, toList_barLine, toList_barLine] at h
    exact (List.cons.inj h).2
  clear h
  induction widths generalizing widths' with
  | nil =>
    cases widths' with
    | nil => rfl
    | cons => cases hfields
  | cons width widths ih =>
    cases widths' with
    | nil => cases hfields
    | cons width' widths' =>
      simp only [List.map_cons, fields_cons, toList_pad_dashes, List.cons_inj_right] at hfields
      -- The dashes end at the space behind them.
      obtain ⟨hdashes, hrest⟩ := Text.append_inj_of_runs (p := (· == '-')) (by simp) (by simp)
        (by simp) (by simp) hfields
      have hwidth : width = width' := by simpa using congrArg List.length hdashes
      rw [hwidth, ih (List.cons.inj (List.cons.inj hrest).2).2]

end RelTrace.Relation
