import RelTrace.Proofs.Query.Moving
import RelTrace.Proofs.Query.RoundTrip

/-!
# Other parentheses

The canonical text of a tree can be written with parentheses around other operands of its unions and
joins. Every such text is a query, but perhaps for another tree: an operand without parentheses goes
on with the operands that wait where it is met. Which tree it is follows from the shape alone.

## Main definitions

* `Parentheses`: a choice of operands.
* `Expr.written`: the canonical text with the chosen operands in parentheses.
* `Expr.regroup`: what a reading makes of a tree that is written so.
-/

namespace RelTrace

open Grammar Token

/-- The operands of a node. -/
inductive Operand where
  | only
  | left
  | right
deriving DecidableEq

/-- A choice of operands of nodes. A node is found from the root through the operands that it lies
in. -/
abbrev Parentheses := List Operand → Operand → Bool

/-- The choice among the operands of nodes that lie in an operand of the root. -/
def Parentheses.within (wraps : Parentheses) (o : Operand) : Parentheses :=
  fun place => wraps (o :: place)

/-- The canonical text with parentheses around the chosen operands of unions and joins. -/
def Expr.written (wraps : Parentheses) : Expr → String
  | relation name _ => name
  | project attributes e _ =>
    "π[" ++ ", ".intercalate attributes ++ "](" ++ e.written (wraps.within .only) ++ ")"
  | select condition e _ => "σ[" ++ condition ++ "](" ++ e.written (wraps.within .only) ++ ")"
  | union l r _ =>
    parenthesize (wraps [] .left) (l.written (wraps.within .left)) ++ " ∪ " ++
      parenthesize (wraps [] .right) (r.written (wraps.within .right))
  | join condition l r _ =>
    parenthesize (wraps [] .left) (l.written (wraps.within .left)) ++ " ⋈_\x7b" ++ condition ++
      "\x7d " ++ parenthesize (wraps [] .right) (r.written (wraps.within .right))

namespace Waiting

/-- The tree of an operand and of what waits for it, at the end of an expression. -/
def closed (r : Expr × Waiting) : Expr := r.2.close r.1

/-- A union waits for its right operand. -/
def beforeUnion (r : Expr × Waiting) : Waiting := { r.2 with unions := r.1 :: r.2.unions }

/-- A join waits for its right operand. -/
def beforeJoin (condition : String) (r : Expr × Waiting) : Waiting :=
  { r.2 with join? := some (r.1, condition) }

/-- An operand in parentheses is complete before it meets what waits. -/
def enclose (wanted : Bool) (read : Waiting → Expr × Waiting) (w : Waiting) : Expr × Waiting :=
  if wanted then w.take (closed (read .none)) else read w

end Waiting

open Waiting

/-- The operand at hand and those that wait, when the written text of a tree has been read where
operands wait. -/
def Expr.regroup (wraps : Parentheses) : Expr → Waiting → Expr × Waiting
  | relation name s, w => w.take (relation name s)
  | project attributes e s, w =>
    w.take (project attributes (closed (e.regroup (wraps.within .only) .none)) s)
  | select condition e s, w =>
    w.take (select condition (closed (e.regroup (wraps.within .only) .none)) s)
  | union l r _, w =>
    enclose (wraps [] .right) (r.regroup (wraps.within .right))
      (beforeUnion (enclose (wraps [] .left) (l.regroup (wraps.within .left)) w))
  | join condition l r _, w =>
    enclose (wraps [] .right) (r.regroup (wraps.within .right))
      (beforeJoin condition (enclose (wraps [] .left) (l.regroup (wraps.within .left)) w))

/-- All places become one. -/
def Move.collapse : Move := ⟨fun _ => 0, fun _ => 0⟩

/-- Wherever the text stands and whatever waits, reading it leads to an operand with waiting
operands, up to spans. -/
def ReadsAs (cs : List Char) (read : Waiting → Expr × Waiting) : Prop :=
  ∀ position w outer, ∃ e w', Reads ⟨.operand, w, outer⟩ (scan position [] cs)
    ⟨.operator e, w', outer⟩ ∧ read (w.move .collapse) = (e.eraseSpans, w'.move .collapse)

variable {cs ls rs : List Char} {read readLeft readRight : Waiting → Expr × Waiting} {e : Expr}

/-- A primary expression is an operand of whatever waits. -/
theorem Spells.readsAs (h : Spells .primary cs e) : ReadsAs cs fun w => w.take e.eraseSpans := by
  intro position w outer
  obtain ⟨e', he, herase⟩ := h position
  refine ⟨(w.take e').1, (w.take e').2, he.leads w outer, ?_⟩
  rw [← herase]
  exact take_move .collapse w e'

namespace ReadsAs

/-- At its end the text is an expression. -/
theorem exists_derives (h : ReadsAs cs read) (position : Nat) :
    ∃ e, Derives .expression (scan position [] cs) e ∧ e.eraseSpans = closed (read .none) := by
  obtain ⟨x, w, hread, heq⟩ := h position .none []
  have hparse : parse (scan position [] cs) = .ok (w.close x) :=
    parse_eq_ok_iff_reads.mpr ⟨_, hread, Reading.finish_eq_ok_iff.mpr ⟨x, rfl, rfl, rfl⟩⟩
  have hclosed : closed (read .none) = (w.close x).eraseSpans := by
    have hnone : Waiting.none.move .collapse = .none := rfl
    rw [closed, ← hnone, heq]
    exact close_move .collapse w x
  exact ⟨w.close x, parse_eq_ok_iff_derives.mp hparse, hclosed.symm⟩

theorem eraseSpans_closed (h : ReadsAs cs read) :
    (closed (read .none)).eraseSpans = closed (read .none) := by
  obtain ⟨e, -, herase⟩ := h.exists_derives 0
  rw [← herase, Expr.eraseSpans_eraseSpans]

theorem spells (h : ReadsAs cs read) : Spells .expression cs (closed (read .none)) := by
  intro position
  obtain ⟨e, he, herase⟩ := h.exists_derives position
  exact ⟨e, he, by rw [herase, h.eraseSpans_closed]⟩

theorem parenthesize {s : String} (h : ReadsAs s.toList read) (wanted : Bool) :
    ReadsAs (Expr.parenthesize wanted s).toList (enclose wanted read) := by
  cases wanted with
  | false => exact h
  | true =>
    have htext : (Expr.parenthesize true s).toList = '(' :: (s.toList ++ [')']) := by
      simp [Expr.parenthesize]
    have hgroup := h.spells.group.readsAs
    rw [h.eraseSpans_closed] at hgroup
    rw [htext]
    exact hgroup

theorem union (hl : ReadsAs ls readLeft) (hr : ReadsAs rs readRight) :
    ReadsAs (ls ++ ' ' :: '∪' :: ' ' :: rs) fun w => readRight (beforeUnion (readLeft w)) := by
  intro position w outer
  obtain ⟨l, wl, hleft, hleq⟩ := hl position w outer
  obtain ⟨r, wr, hright, hreq⟩ := hr (position + ls.length + 3) (beforeUnion (l, wl)) outer
  refine ⟨r, wr, ?_, ?_⟩
  · rw [scan_append (by simp; rfl), scan_space, scan_symbol (k := .union) rfl, scan_space]
    exact hleft.append (.cons (by simp [Reading.step, Reading.stepOperator, beforeUnion]) hright)
  · exact (congrArg (fun left => readRight (beforeUnion left)) hleq).trans hreq

theorem join {condition : String} (hcondition : IsCondition '}' condition)
    (hl : ReadsAs ls readLeft) (hr : ReadsAs rs readRight) :
    ReadsAs (ls ++ ' ' :: '⋈' :: '_' :: '{' :: (condition.toList ++ '}' :: ' ' :: rs))
      fun w => readRight (beforeJoin condition (readLeft w)) := by
  intro position w outer
  obtain ⟨l, wl, hleft, hleq⟩ := hl position w outer
  obtain ⟨r, wr, hright, hreq⟩ :=
    hr (position + ls.length + 1 + 1 + 1 + 1 + condition.toList.length + 1 + 1)
      (beforeJoin condition (l, wl)) outer
  refine ⟨r, wr, ?_, ?_⟩
  · have htext : joinTexts (scan (position + ls.length + 1 + 1 + 1 + 1) [] condition.toList) =
        condition := by
      rw [joinTexts_scan]
      exact hcondition.keptText_eq
    rw [scan_append (by simp; rfl), scan_space, scan_symbol (k := .join) rfl,
      scan_symbol (k := .underscore) rfl, scan_symbol (k := .leftBrace) rfl,
      scan_append (by simp; rfl), scan_symbol (k := .rightBrace) rfl, scan_space]
    refine hleft.append
      (.joinOperator rfl rfl rfl (kind_ne_of_not_mem hcondition.not_mem rfl) rfl ?_)
    rw [htext]
    exact hright
  · exact (congrArg (fun left => readRight (beforeJoin condition left)) hleq).trans hreq

end ReadsAs

/-- Reading the written text of a well-formed tree regroups the tree. -/
theorem Expr.WellFormed.readsAs_written (h : e.WellFormed) (wraps : Parentheses) :
    ReadsAs (e.written wraps).toList (e.eraseSpans.regroup wraps) := by
  induction e generalizing wraps with
  | relation name s => exact (Spells.relation h : Spells _ _ (.relation name s)).readsAs
  | project names e s ih =>
    have hoperand := ih h.2 (wraps.within .only)
    have hproject := (Spells.project h.1 hoperand.spells : Spells _ _ (.project names _ s)).readsAs
    rw [eraseSpans_project, hoperand.eraseSpans_closed] at hproject
    have htext : ((project names e s).written wraps).toList = 'π' :: '[' ::
        ((", ".intercalate names).toList ++
          ']' :: '(' :: ((e.written (wraps.within .only)).toList ++ [')'])) := by
      simp [written]
    rw [htext]
    exact hproject
  | select condition e s ih =>
    have hoperand := ih h.2 (wraps.within .only)
    have hselect := (Spells.select h.1 hoperand.spells : Spells _ _ (.select condition _ s)).readsAs
    rw [eraseSpans_select, hoperand.eraseSpans_closed] at hselect
    have htext : ((select condition e s).written wraps).toList = 'σ' :: '[' ::
        (condition.toList ++
          ']' :: '(' :: ((e.written (wraps.within .only)).toList ++ [')'])) := by
      simp [written]
    rw [htext]
    exact hselect
  | union l r s ihl ihr =>
    have hleft := (ihl h.1 (wraps.within .left)).parenthesize (wraps [] .left)
    have hright := (ihr h.2 (wraps.within .right)).parenthesize (wraps [] .right)
    have htext : ((union l r s).written wraps).toList =
        (parenthesize (wraps [] .left) (l.written (wraps.within .left))).toList ++
          ' ' :: '∪' :: ' ' ::
            (parenthesize (wraps [] .right) (r.written (wraps.within .right))).toList := by
      simp [written]
    rw [htext]
    exact hleft.union hright
  | join condition l r s ihl ihr =>
    have hleft := (ihl h.2.1 (wraps.within .left)).parenthesize (wraps [] .left)
    have hright := (ihr h.2.2 (wraps.within .right)).parenthesize (wraps [] .right)
    have htext : ((join condition l r s).written wraps).toList =
        (parenthesize (wraps [] .left) (l.written (wraps.within .left))).toList ++
          ' ' :: '⋈' :: '_' :: '{' :: (condition.toList ++ '}' :: ' ' ::
            (parenthesize (wraps [] .right) (r.written (wraps.within .right))).toList) := by
      simp [written]
    rw [htext]
    exact hleft.join h.1 hright

/-- The written text of a well-formed tree is a query for the regrouped tree. -/
theorem Expr.WellFormed.exists_compile_written (h : e.WellFormed) (wraps : Parentheses) :
    ∃ e', (compile (e.written wraps)).value = .ok e' ∧
      e'.eraseSpans = closed (e.eraseSpans.regroup wraps .none) := by
  obtain ⟨e', he, herase⟩ := (h.readsAs_written wraps).exists_derives 0
  exact ⟨e', compile_eq_ok_iff_derives.mpr he, herase⟩

end RelTrace
