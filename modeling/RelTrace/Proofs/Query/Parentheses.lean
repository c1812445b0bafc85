import Mathlib.Algebra.GroupWithZero.Nat
import RelTrace.Proofs.Query.Regrouping

/-!
# Needed parentheses

The canonical text has exactly the parentheses around operands of unions and joins that its tree
needs: a text with other parentheses is a query for the same tree if and only if it has all of
those. A pair that is left out moves nodes from one operand to another, and counting nodes shows
that nothing else makes up for it.

## Main definitions

* `Expr.parentheses`: the parentheses of the canonical text.
* `Waiting.Keeps`: a reading that loses no node and leaves alone what waits further out.
-/

namespace RelTrace

open Waiting

/-- The operands that stand in parentheses in the canonical text. -/
def Expr.parentheses : Expr → Parentheses
  | union l _ _, [], .left | join _ l _ _, [], .left => l.wrapsOnLeft
  | join _ _ r _, [], .right => r.wrapsOnRight
  | project _ e _, .only :: place, o | select _ e _, .only :: place, o => e.parentheses place o
  | union l _ _, .left :: place, o | join _ l _ _, .left :: place, o => l.parentheses place o
  | union _ r _, .right :: place, o | join _ _ r _, .right :: place, o => r.parentheses place o
  | _, _, _ => false

/-- The choice has all parentheses of another one. -/
def Parentheses.Covers (wraps own : Parentheses) : Prop := ∀ place o, own place o → wraps place o

variable {wraps : Parentheses} {e l r : Expr} {s : Span} {condition : String} {w : Waiting}
  {read : Waiting → Expr × Waiting}

theorem Expr.written_parentheses (e : Expr) : e.written e.parentheses = e.canonical := by
  induction e with
  | relation => rfl
  | project attributes e s ih =>
    change "π[" ++ ", ".intercalate attributes ++ "](" ++ e.written e.parentheses ++ ")" = _
    rw [ih]
    rfl
  | select condition e s ih =>
    change "σ[" ++ condition ++ "](" ++ e.written e.parentheses ++ ")" = _
    rw [ih]
    rfl
  | union l r s ihl ihr =>
    change parenthesize l.wrapsOnLeft (l.written l.parentheses) ++ " ∪ " ++
      r.written r.parentheses = _
    rw [ihl, ihr]
    rfl
  | join condition l r s ihl ihr =>
    change parenthesize l.wrapsOnLeft (l.written l.parentheses) ++ " ⋈_\x7b" ++ condition ++
      "\x7d " ++ parenthesize r.wrapsOnRight (r.written r.parentheses) = _
    rw [ihl, ihr]
    rfl

namespace Parentheses

/-- A choice covers another one at the root and within each operand. -/
theorem covers_iff {own : Parentheses} :
    wraps.Covers own ↔
      (∀ o, own [] o → wraps [] o) ∧ ∀ o, (wraps.within o).Covers (own.within o) := by
  constructor
  · exact fun h => ⟨h [], fun o place => h (o :: place)⟩
  · rintro ⟨hroot, hinside⟩ place o hown
    cases place with
    | nil => exact hroot o hown
    | cons first place => exact hinside first place o hown

theorem forall_operand_iff {p : Operand → Prop} : (∀ o, p o) ↔ p .only ∧ p .left ∧ p .right :=
  ⟨fun h => ⟨h .only, h .left, h .right⟩, fun ⟨honly, hleft, hright⟩ o => by cases o <;> assumption⟩

theorem covers_relation (name : String) : wraps.Covers (Expr.relation name s).parentheses :=
  fun _ _ hown => nomatch hown

theorem covers_project {attributes : List String} :
    wraps.Covers (Expr.project attributes e s).parentheses ↔
      (wraps.within .only).Covers e.parentheses := by
  rw [covers_iff, forall_operand_iff, forall_operand_iff]
  exact ⟨fun ⟨_, he, _⟩ => he, fun he => ⟨⟨nofun, nofun, nofun⟩, he, nofun, nofun⟩⟩

theorem covers_select :
    wraps.Covers (Expr.select condition e s).parentheses ↔
      (wraps.within .only).Covers e.parentheses := by
  rw [covers_iff, forall_operand_iff, forall_operand_iff]
  exact ⟨fun ⟨_, he, _⟩ => he, fun he => ⟨⟨nofun, nofun, nofun⟩, he, nofun, nofun⟩⟩

theorem covers_union :
    wraps.Covers (Expr.union l r s).parentheses ↔ (l.wrapsOnLeft → wraps [] .left) ∧
      (wraps.within .left).Covers l.parentheses ∧ (wraps.within .right).Covers r.parentheses := by
  rw [covers_iff, forall_operand_iff, forall_operand_iff]
  exact ⟨fun ⟨⟨_, hleft, _⟩, _, hl, hr⟩ => ⟨hleft, hl, hr⟩,
    fun ⟨hleft, hl, hr⟩ => ⟨⟨nofun, hleft, nofun⟩, nofun, hl, hr⟩⟩

theorem covers_join :
    wraps.Covers (Expr.join condition l r s).parentheses ↔
      (l.wrapsOnLeft → wraps [] .left) ∧ (r.wrapsOnRight → wraps [] .right) ∧
        (wraps.within .left).Covers l.parentheses ∧ (wraps.within .right).Covers r.parentheses := by
  rw [covers_iff, forall_operand_iff, forall_operand_iff]
  exact ⟨fun ⟨⟨_, hleft, hright⟩, _, hl, hr⟩ => ⟨hleft, hright, hl, hr⟩,
    fun ⟨hleft, hright, hl, hr⟩ => ⟨⟨nofun, hleft, hright⟩, nofun, hl, hr⟩⟩

end Parentheses

namespace Waiting

/-- The nodes of the operands that wait, and those that they wait to become. -/
def nodeCount (w : Waiting) : Nat :=
  (w.unions.map fun l => l.nodeCount + 1).sum + w.join?.elim 0 fun left => left.1.nodeCount + 1

/-- The same operands, with unions that wait further out. -/
def append (w : Waiting) (unions : List Expr) : Waiting := { w with unions := w.unions ++ unions }

theorem nodeCount_take (w : Waiting) (e : Expr) :
    (w.take e).1.nodeCount + (w.take e).2.nodeCount = w.nodeCount + e.nodeCount := by
  obtain ⟨unions, join?⟩ := w
  cases join? with
  | none => simp [take, nodeCount, Nat.add_comm]
  | some left => simp [take, nodeCount, Expr.joinOn, Expr.nodeCount]; omega

theorem nodeCount_closed {read : Expr × Waiting} (h : read.2.join? = Option.none) :
    (closed read).nodeCount = read.1.nodeCount + read.2.nodeCount := by
  obtain ⟨e, unions, join?⟩ := read
  cases h
  simp only [closed, close, nodeCount]
  induction unions generalizing e with
  | nil => simp
  | cons l unions ih =>
    rw [List.foldl_cons, ih]
    simp [Expr.unite, Expr.nodeCount]
    omega

/-- Where unions wait, the whole is a union with one of the waiting operands on its left. -/
theorem exists_closed_eq_unite {read : Expr × Waiting} (h : read.2.unions ≠ []) :
    ∃ l r : Expr, closed read = l.unite r ∧ l.nodeCount < read.2.nodeCount := by
  obtain ⟨e, unions, join?⟩ := read
  obtain ⟨unions, l, rfl⟩ := List.eq_nil_or_concat unions |>.resolve_left h
  refine ⟨l, closed (e, ⟨unions, join?⟩), by simp [closed, close], ?_⟩
  simp [nodeCount]
  omega

theorem take_append (w : Waiting) (unions : List Expr) (e : Expr) :
    (w.append unions).take e = ((w.take e).1, (w.take e).2.append unions) := by
  obtain ⟨waiting, join?⟩ := w
  cases join? <;> rfl

theorem right_take {w : Waiting} (h : (w.take e).1 = .join condition l r s) :
    r.nodeCount ≤ e.nodeCount := by
  obtain ⟨unions, join?⟩ := w
  cases join? with
  | none =>
    obtain rfl : e = .join condition l r s := h
    simp [Expr.nodeCount]
  | some left =>
    obtain ⟨-, -, rfl, -⟩ := Expr.join.inj h
    exact Nat.le_refl _

/-- Reading an operand loses no node, completes the join that waits for it, and leaves alone the
unions that wait further out. A join that has been read ends in a part of the operand. -/
structure Keeps (e : Expr) (read : Waiting → Expr × Waiting) : Prop where
  append : ∀ w unions, read (w.append unions) = ((read w).1, (read w).2.append unions)
  join? : ∀ w, (read w).2.join? = Option.none
  nodeCount : ∀ w, (read w).1.nodeCount + (read w).2.nodeCount = w.nodeCount + e.nodeCount
  right_le : ∀ w condition l r s, (read w).1 = .join condition l r s → r.nodeCount ≤ e.nodeCount

/-- Where no operand waits, parentheses change nothing. -/
theorem closed_enclose (wanted : Bool) (read : Waiting → Expr × Waiting) :
    closed (enclose wanted read .none) = closed (read .none) := by
  cases wanted <;> rfl

namespace Keeps

variable {readLeft readRight : Waiting → Expr × Waiting}

theorem take {e' : Expr} (h : e'.nodeCount = e.nodeCount) : Keeps e fun w => w.take e' where
  append w unions := take_append w unions e'
  join? w := by
    obtain ⟨unions, join?⟩ := w
    cases join? <;> rfl
  nodeCount w := h ▸ nodeCount_take w e'
  right_le w condition l r s hjoin := h ▸ right_take hjoin

theorem nodeCount_closed (h : Keeps e read) : (closed (read .none)).nodeCount = e.nodeCount := by
  have hnone : Waiting.none.nodeCount = 0 := rfl
  rw [Waiting.nodeCount_closed (h.join? _), h.nodeCount, hnone, Nat.zero_add]

theorem enclose (h : Keeps e read) (wanted : Bool) : Keeps e (enclose wanted read) := by
  cases wanted with
  | false => exact h
  | true => exact .take h.nodeCount_closed

/-- Between two operands, the left one waits for the right one as one more node. -/
theorem between {before : Expr × Waiting → Waiting} (hl : Keeps l readLeft)
    (hr : Keeps r readRight) (he : e.nodeCount = 1 + l.nodeCount + r.nodeCount)
    (happend : ∀ x w unions, before (x, w.append unions) = (before (x, w)).append unions)
    (hbefore : ∀ left, left.2.join? = Option.none →
      (before left).nodeCount = left.1.nodeCount + left.2.nodeCount + 1) :
    Keeps e fun w => readRight (before (readLeft w)) where
  append w unions := by rw [hl.append, happend, hr.append]
  join? w := hr.join? _
  nodeCount w := by
    have hleft := hl.nodeCount w
    have hright := hr.nodeCount (before (readLeft w))
    have hwaiting := hbefore (readLeft w) (hl.join? w)
    omega
  right_le w condition a b t hjoin := by
    have hright := hr.right_le _ condition a b t hjoin
    omega

theorem union (hl : Keeps l readLeft) (hr : Keeps r readRight) :
    Keeps (.union l r s) fun w => readRight (beforeUnion (readLeft w)) := by
  refine hl.between hr rfl (fun _ _ _ => rfl) fun left hleft => ?_
  simp [beforeUnion, Waiting.nodeCount, hleft]
  omega

theorem join (hl : Keeps l readLeft) (hr : Keeps r readRight) :
    Keeps (.join condition l r s) fun w => readRight (beforeJoin condition (readLeft w)) := by
  refine hl.between hr rfl (fun _ _ _ => rfl) fun left hleft => ?_
  simp [beforeJoin, Waiting.nodeCount, hleft]
  omega

/-- What has been read on the left of a union waits around the whole of its right. -/
theorem beforeUnion_eq (hr : Keeps r readRight) {left : Expr × Waiting}
    (hleft : left.2.join? = Option.none) :
    readRight (beforeUnion left) =
      ((readRight .none).1, (readRight .none).2.append (left.1 :: left.2.unions)) := by
  have hbefore : beforeUnion left = Waiting.none.append (left.1 :: left.2.unions) := by
    simp [beforeUnion, Waiting.append, Waiting.none, hleft]
  rw [hbefore, hr.append]

theorem closed_beforeUnion (hr : Keeps r readRight) {left : Expr × Waiting}
    (hleft : left.2.join? = Option.none) :
    closed (readRight (beforeUnion left)) =
      closed (left.1.unite (closed (readRight .none)), left.2) := by
  rw [hr.beforeUnion_eq hleft]
  simp [closed, close, Waiting.append]

end Keeps

end Waiting

namespace Expr

theorem keeps_regroup (wraps : Parentheses) (e : Expr) : Keeps e (e.regroup wraps) := by
  induction e generalizing wraps with
  | relation => exact .take rfl
  | project _ _ _ ih | select _ _ _ ih =>
    exact .take (congrArg (1 + ·) (ih (wraps.within .only)).nodeCount_closed)
  | union _ _ _ ihl ihr =>
    exact ((ihl (wraps.within .left)).enclose _).union ((ihr (wraps.within .right)).enclose _)
  | join _ _ _ _ ihl ihr =>
    exact ((ihl (wraps.within .left)).enclose _).join ((ihr (wraps.within .right)).enclose _)

theorem unions_regroup_union_ne_nil :
    ((union l r s).regroup wraps w).2.unions ≠ [] := by
  have hleft := (keeps_regroup (wraps.within .left) l).enclose (wraps [] .left)
  have hright := (keeps_regroup (wraps.within .right) r).enclose (wraps [] .right)
  simp [regroup, hright.beforeUnion_eq (hleft.join? w), Waiting.append]

/-- Where no union waits behind it, the whole is the operand at hand. -/
theorem eq_of_closed_eq {read : Expr × Waiting} (hjoin : read.2.join? = Option.none)
    (hclosed : closed read = e) (he : e.wrapsOnLeft = false) : read = (e, .none) := by
  obtain ⟨x, unions, join?⟩ := read
  cases hjoin
  cases unions with
  | nil =>
    cases hclosed
    rfl
  | cons u unions =>
    have hunions : (x, (⟨u :: unions, Option.none⟩ : Waiting)).2.unions ≠ [] :=
      List.cons_ne_nil u unions
    obtain ⟨l, r, hunite, -⟩ := exists_closed_eq_unite hunions
    rw [hclosed.symm.trans hunite] at he
    exact nomatch he

/-- Where nothing waits, a tree is read as one operand exactly if it is read as itself and is not a
union without parentheses. -/
theorem enclose_regroup_eq_iff {wanted : Bool} :
    enclose wanted (l.regroup wraps) .none = (l, .none) ↔
      (l.wrapsOnLeft → wanted) ∧ closed (l.regroup wraps .none) = l := by
  cases wanted with
  | true =>
    have henclose : enclose true (l.regroup wraps) .none =
        (closed (l.regroup wraps .none), Waiting.none) := rfl
    simp [henclose]
  | false =>
    have henclose : enclose false (l.regroup wraps) .none = l.regroup wraps .none := rfl
    rw [henclose]
    constructor
    · intro h
      refine ⟨fun hwraps => ?_, by rw [h]; rfl⟩
      cases l with
      | union => exact absurd (congrArg (·.2.unions) h) unions_regroup_union_ne_nil
      | relation | project | select | join => exact nomatch hwraps
    · rintro ⟨hwraps, hclosed⟩
      exact eq_of_closed_eq ((keeps_regroup wraps l).join? _) hclosed (by simpa using hwraps)

/-- A tree that needs no parentheses on the right of a join is read as one operand. -/
theorem enclose_regroup_eq_take {wanted : Bool} (h : r.wrapsOnRight → wanted) (w : Waiting) :
    enclose wanted (r.regroup wraps) w = w.take (closed (r.regroup wraps .none)) := by
  cases wanted with
  | true => rfl
  | false =>
    cases r with
    | relation | project | select => rfl
    | union | join => exact nomatch h rfl

theorem closed_regroup_union_iff :
    closed ((l.unite r).regroup wraps .none) = l.unite r ↔
      ((l.wrapsOnLeft → wraps [] .left) ∧ closed (l.regroup (wraps.within .left) .none) = l) ∧
        closed (r.regroup (wraps.within .right) .none) = r := by
  have hleft := (keeps_regroup (wraps.within .left) l).enclose (wraps [] .left)
  have hright := (keeps_regroup (wraps.within .right) r).enclose (wraps [] .right)
  have hjoin := hleft.join? .none
  have hcount := hleft.nodeCount .none
  have hclosed := hright.closed_beforeUnion hjoin
  rw [closed_enclose] at hclosed
  rw [← enclose_regroup_eq_iff, unite, regroup, hclosed]
  generalize enclose (wraps [] .left) (l.regroup (wraps.within .left)) .none = left at *
  generalize closed (r.regroup (wraps.within .right) .none) = right
  obtain ⟨x, unions, join?⟩ := left
  cases hjoin
  cases unions with
  | nil =>
    constructor
    · intro h
      obtain ⟨rfl, rfl, -⟩ := union.inj h
      exact ⟨rfl, rfl⟩
    · rintro ⟨⟨⟩, rfl⟩
      rfl
  | cons u unions =>
    constructor
    · intro h
      -- The left operand would be one of those that wait, and they are smaller.
      have hunions : (x.unite right, (⟨u :: unions, Option.none⟩ : Waiting)).2.unions ≠ [] :=
        List.cons_ne_nil u unions
      obtain ⟨a, b, hunite, hlt⟩ := exists_closed_eq_unite hunions
      obtain ⟨rfl, -, -⟩ := union.inj (h.symm.trans hunite)
      have hnone : Waiting.none.nodeCount = 0 := rfl
      simp only at hcount hlt
      omega
    · intro h
      cases congrArg (fun read : Expr × Waiting => read.2.unions) h.1

/-- A join is read as itself only if nothing of its right operand goes to its left. -/
theorem wrapsOnRight_of_regroup_eq_joinOn {wanted : Bool}
    (h : enclose wanted (r.regroup wraps) w = (joinOn condition l r, .none)) :
    r.wrapsOnRight → wanted := by
  cases wanted with
  | true => exact fun _ => rfl
  | false =>
    change r.regroup wraps w = (joinOn condition l r, .none) at h
    intro hwraps
    cases r with
    | relation | project | select => exact nomatch hwraps
    | union => exact absurd (congrArg (·.2.unions) h) unions_regroup_union_ne_nil
    | join _ _ r =>
      have hle := ((keeps_regroup (wraps.within .right) r).enclose (wraps [] .right)).right_le _
        condition l _ _ (congrArg Prod.fst h)
      simp only [nodeCount] at hle
      omega

theorem closed_regroup_join_iff :
    closed ((joinOn condition l r).regroup wraps .none) = joinOn condition l r ↔
      ((l.wrapsOnLeft → wraps [] .left) ∧ closed (l.regroup (wraps.within .left) .none) = l) ∧
        (r.wrapsOnRight → wraps [] .right) ∧
          closed (r.regroup (wraps.within .right) .none) = r := by
  have hleft := (keeps_regroup (wraps.within .left) l).enclose (wraps [] .left)
  have hright := (keeps_regroup (wraps.within .right) r).enclose (wraps [] .right)
  rw [← enclose_regroup_eq_iff]
  constructor
  · intro h
    have hread := eq_of_closed_eq (hright.join? _) h rfl
    have hwraps := wrapsOnRight_of_regroup_eq_joinOn hread
    rw [enclose_regroup_eq_take hwraps] at hread
    have hjoin := hleft.join? .none
    generalize enclose (wraps [] .left) (l.regroup (wraps.within .left)) .none = left at *
    generalize closed (r.regroup (wraps.within .right) .none) = right at *
    obtain ⟨x, unions, join?⟩ := left
    cases hjoin
    obtain ⟨htree, hwaiting⟩ := Prod.mk.inj hread
    obtain ⟨-, rfl, rfl, -⟩ := join.inj htree
    obtain ⟨rfl, -⟩ := Waiting.mk.inj hwaiting
    exact ⟨rfl, hwraps, rfl⟩
  · rintro ⟨hl, hwraps, hr⟩
    rw [joinOn, regroup, hl, enclose_regroup_eq_take hwraps, hr]
    rfl

/-- A tree is read as itself exactly from a text with all parentheses of its canonical text. -/
theorem closed_regroup_eq_iff (wraps : Parentheses) (e : Expr) :
    closed (e.eraseSpans.regroup wraps .none) = e.eraseSpans ↔ wraps.Covers e.parentheses := by
  induction e generalizing wraps with
  | relation name s => exact ⟨fun _ => Parentheses.covers_relation name, fun _ => rfl⟩
  | project attributes e s ih =>
    rw [Parentheses.covers_project, ← ih]
    exact ⟨fun h => (project.inj h).2.1, fun h => congrArg (project attributes · ⟨0, 0⟩) h⟩
  | select condition e s ih =>
    rw [Parentheses.covers_select, ← ih]
    exact ⟨fun h => (select.inj h).2.1, fun h => congrArg (select condition · ⟨0, 0⟩) h⟩
  | union l r s ihl ihr =>
    have hunite : (union l r s).eraseSpans = l.eraseSpans.unite r.eraseSpans := by
      simp [eraseSpans_union, unite]
    rw [Parentheses.covers_union, ← ihl, ← ihr, hunite, closed_regroup_union_iff,
      wrapsOnLeft_eraseSpans, and_assoc]
  | join condition l r s ihl ihr =>
    have hjoin : (join condition l r s).eraseSpans =
        joinOn condition l.eraseSpans r.eraseSpans := by
      simp [eraseSpans_join, joinOn]
    rw [Parentheses.covers_join, ← ihl, ← ihr, hjoin, closed_regroup_join_iff,
      wrapsOnLeft_eraseSpans, wrapsOnRight_eraseSpans, and_and_and_comm, and_assoc]

end Expr

/-- The canonical text has exactly the needed parentheses around operands of unions and joins. With
others it is a query for the same tree if and only if none of these is left out. -/
theorem canonical_has_needed_parentheses (h : e.WellFormed) :
    e.written e.parentheses = e.canonical ∧
      ∀ wraps : Parentheses,
        (∃ e', (compile (e.written wraps)).value = .ok e' ∧ e'.eraseSpans = e.eraseSpans) ↔
          ∀ place o, e.parentheses place o → wraps place o := by
  refine ⟨e.written_parentheses, fun wraps => ?_⟩
  obtain ⟨e', he, herase⟩ := h.exists_compile_written wraps
  rw [← Parentheses.Covers, ← e.closed_regroup_eq_iff wraps, ← herase, he]
  constructor
  · rintro ⟨_, ⟨⟩, hsame⟩
    exact hsame
  · exact fun hsame => ⟨e', rfl, hsame⟩

/-- The parentheses of a union under a join cannot be left out, and more of them do no harm. -/
theorem canonical_has_needed_parentheses_join :
    ∃ e, e = Expr.join "x=y" (.union (.relation "A" ⟨0, 0⟩) (.relation "B" ⟨0, 0⟩) ⟨0, 0⟩)
        (.relation "C" ⟨0, 0⟩) ⟨0, 0⟩ ∧ e.WellFormed ∧
      (∃ e', (compile "((A) ∪ (B)) ⋈_\x7bx=y\x7d (C)").value = .ok e' ∧
        e'.eraseSpans = e.eraseSpans) ∧
      ¬ ∃ e', (compile "(A) ∪ (B) ⋈_\x7bx=y\x7d C").value = .ok e' ∧
        e'.eraseSpans = e.eraseSpans := by
  refine ⟨_, rfl, ?_⟩
  have hwf : (Expr.join "x=y" (.union (.relation "A" ⟨0, 0⟩) (.relation "B" ⟨0, 0⟩) ⟨0, 0⟩)
      (.relation "C" ⟨0, 0⟩) ⟨0, 0⟩).WellFormed := by
    simp [Expr.WellFormed, Token.IsName, IsCondition, Token.isKept, Token.isIdentifierChar]
  obtain ⟨-, hneeded⟩ := canonical_has_needed_parentheses hwf
  exact ⟨hwf, (hneeded fun _ _ => true).mpr fun _ _ _ => rfl,
    fun h => Bool.false_ne_true ((hneeded fun place _ => !place.isEmpty).mp h [] .left rfl)⟩

end RelTrace
