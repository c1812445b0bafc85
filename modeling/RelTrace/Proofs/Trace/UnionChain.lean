import RelTrace.Proofs.Query.RoundTrip
import RelTrace.Proofs.Relation.Union
import RelTrace.Proofs.Trace.Outcome

/-!
# Chains of unions

Operands may be combined by unions in many ways, with different parentheses. All of them have the
same final rows, in the same order.

## Main definitions

* `Expr.Unites`: the tree combines a list of operands, in this order, by unions alone.
-/

namespace RelTrace

namespace Expr

/-- The tree combines the operands in their order by unions, with any bracketing. Operands are given
up to spans, since they stand at other places of other queries. -/
inductive Unites : List Expr → Expr → Prop
  | operand {o e : Expr} (h : e.eraseSpans = o.eraseSpans) : Unites [o] e
  | union {ls rs : List Expr} {l r : Expr} {span : Span} (hl : Unites ls l) (hr : Unites rs r) :
      Unites (ls ++ rs) (.union l r span)

namespace Unites

variable {db : Lookup} {os : List Expr} {e : Expr}

/-- The tree may be read at other places. -/
theorem of_eraseSpans_eq {e' : Expr} (h : Unites os e) (herase : e'.eraseSpans = e.eraseSpans) :
    Unites os e' := by
  induction h generalizing e' with
  | operand h => exact .operand (herase.trans h)
  | union _ _ ihl ihr =>
    cases e' with
    | union l r span =>
      obtain ⟨hl, hr⟩ : l.eraseSpans = _ ∧ r.eraseSpans = _ := by
        simpa [eraseSpans, mapSpans] using herase
      exact .union (ihl hl) (ihr hr)
    | relation | project | select | join => simp [eraseSpans, mapSpans] at herase

theorem wellFormed (h : Unites os e) (hos : ∀ o ∈ os, o.WellFormed) : e.WellFormed := by
  induction h with
  | @operand o e h =>
    have hwf : o.eraseSpans.WellFormed := (wellFormed_mapSpans _ _).mpr (hos o (by simp))
    exact (wellFormed_mapSpans _ _).mp (h ▸ hwf)
  | union _ _ ihl ihr =>
    exact ⟨ihl fun o ho => hos o (List.mem_append_left _ ho),
      ihr fun o ho => hos o (List.mem_append_right _ ho)⟩

/-- However the operands are bracketed, the distinct rows are those of all operands in a row. -/
theorem map_distinct_rows? (h : Unites os e) :
    (e.rows? db).map Relation.distinct =
      (os.mapM (rows? db)).map fun operands => Relation.distinct operands.flatten := by
  induction h with
  | operand h =>
    rw [rows?_eq_of_eraseSpans_eq db h, List.mapM_cons, List.mapM_nil]
    cases rows? db _ <;> simp
  | @union ls rs l r span _ _ ihl ihr =>
    rw [rows?_union, List.mapM_append]
    cases hl : l.rows? db with
    | none =>
      rw [hl] at ihl
      have hls : ls.mapM (rows? db) = none := Option.map_eq_none_iff.mp ihl.symm
      rw [hls]
      rfl
    | some left =>
      rw [hl] at ihl
      obtain ⟨lefts, hls, hlefts⟩ := Option.map_eq_some_iff.mp ihl.symm
      cases hr : r.rows? db with
      | none =>
        rw [hr] at ihr
        have hrs : rs.mapM (rows? db) = none := Option.map_eq_none_iff.mp ihr.symm
        rw [hls, hrs]
        rfl
      | some right =>
        rw [hr] at ihr
        obtain ⟨rights, hrs, hrights⟩ := Option.map_eq_some_iff.mp ihr.symm
        have hrows : Relation.distinct (left.union right) =
            Relation.distinct (lefts ++ rights).flatten := by
          rw [Relation.union, Relation.distinct_distinct, List.flatten_append,
            Relation.distinct_append_congr hlefts hrights]
        rw [hls, hrs]
        exact congrArg some hrows

/-- At least two operands give the first rows of all operands in a row. -/
theorem rows?_eq (h : Unites os e) (hos : 2 ≤ os.length) :
    e.rows? db =
      (os.mapM (rows? db)).map fun operands => Relation.distinct operands.flatten := by
  rw [← h.map_distinct_rows?]
  cases h with
  | operand => cases hos with | step h => cases h
  | @union _ _ l r span =>
    rw [rows?_union]
    cases l.rows? db <;> cases r.rows? db <;> simp [Relation.union]

end Unites

end Expr

/-- Unions keep the first row of each identity in order, may be regrouped, and ignore operands that
repeat earlier rows. Queries that combine the same operands by unions therefore end with the same
rows, and each such combination has a query. -/
theorem union_keeps_first_rows :
    (∀ a b : Relation, a.union b = (a ++ b).firstSeen ∧
      ((a.union b).Pairwise fun r s => ¬ r.Same s) ∧ ∀ row ∈ a ++ b, ∃ r ∈ a.union b, r.Same row) ∧
    (∀ a b c : Relation, (a.union b).union c = a.union (b.union c)) ∧
    (∀ a : Relation, a.union a = a.firstSeen) ∧
    (∀ a b : Relation, (∀ s ∈ b, ∃ r ∈ a, s.Same r) → a.union b = a.union []) ∧
    (∀ (os : List Expr) (e : Expr), (∀ o ∈ os, o.WellFormed) → Expr.Unites os e →
      ∃ e', (compile e.canonical).value = .ok e' ∧ Expr.Unites os e') ∧
    ∀ (db : Lookup) (os : List Expr) (e₁ e₂ : Expr) (q₁ q₂ : String) (t₁ : Trace),
      2 ≤ os.length → Expr.Unites os e₁ → Expr.Unites os e₂ →
      (compile q₁).value = .ok e₁ → (compile q₂).value = .ok e₂ → (run db q₁).value = .ok t₁ →
      ∃ t₂, (run db q₂).value = .ok t₂ ∧ t₂.result.rows = t₁.result.rows := by
  refine ⟨fun a b => ⟨Relation.distinct_eq_firstSeen _, Relation.pairwise_distinct _,
    fun row hrow => Relation.exists_same_of_mem hrow⟩, Relation.union_assoc,
    fun a => ?_, fun a b h => ?_, fun os e hos h => ?_, ?_⟩
  · rw [Relation.union_self, Relation.distinct_eq_firstSeen]
  · rw [Relation.union_eq_distinct h, Relation.union_nil]
  · obtain ⟨e', he', herase⟩ := (h.wellFormed hos).compile_canonical
    exact ⟨e', he', h.of_eraseSpans_eq herase⟩
  · intro db os e₁ e₂ q₁ q₂ t₁ hos h₁ h₂ he₁ he₂ hrun
    have hrows := rows?_of_run he₁ hrun
    rw [h₁.rows?_eq hos, ← h₂.rows?_eq hos] at hrows
    exact run_eq_ok_of_rows? he₂ hrows

theorem union_keeps_first_rows_zeros :
    let a : Relation := [.ofList [("a", .number .zero), ("b", .bool true)]]
    let b : Relation := [.ofList [("b", .bool true), ("a", .number (.finite true .zero))]]
    let db : Lookup := fun name => if name = "A" then some a else some b
    a.union b = a.union [] ∧
      ∃ t₁ t₂, (run db "A ∪ B ∪ A").value = .ok t₁ ∧ (run db "(A ∪ B) ∪ A").value = .ok t₂ ∧
        t₂.result.rows = t₁.result.rows := by
  intro a b db
  obtain ⟨-, -, -, habsorb, -, hchain⟩ := union_keeps_first_rows
  have hsame : ∀ s ∈ b, ∃ r ∈ a, s.Same r := by
    intro s hs
    obtain rfl := List.mem_singleton.mp hs
    exact ⟨_, List.mem_cons_self, Row.same_iff_perm.mpr (by decide +kernel)⟩
  have he₁ : (compile "A ∪ B ∪ A").value =
      .ok (.union (.relation "A" ⟨0, 1⟩) (.union (.relation "B" ⟨4, 5⟩) (.relation "A" ⟨8, 9⟩)
        ⟨4, 9⟩) ⟨0, 9⟩) := rfl
  have he₂ : (compile "(A ∪ B) ∪ A").value =
      .ok (.union (.union (.relation "A" ⟨1, 2⟩) (.relation "B" ⟨5, 6⟩) ⟨1, 6⟩)
        (.relation "A" ⟨10, 11⟩) ⟨1, 11⟩) := rfl
  obtain ⟨t₁, ht₁⟩ : ∃ t, (run db "A ∪ B ∪ A").value = .ok t :=
    ⟨_, run_eq_ok_iff.mpr ⟨_, he₁, rfl⟩⟩
  have hright : Expr.Unites [.relation "A" ⟨0, 1⟩, .relation "B" ⟨4, 5⟩, .relation "A" ⟨8, 9⟩]
      (.union (.relation "A" ⟨0, 1⟩) (.union (.relation "B" ⟨4, 5⟩) (.relation "A" ⟨8, 9⟩)
        ⟨4, 9⟩) ⟨0, 9⟩) :=
    .union (.operand rfl) (.union (.operand rfl) (.operand rfl))
  have hleft : Expr.Unites [.relation "A" ⟨0, 1⟩, .relation "B" ⟨4, 5⟩, .relation "A" ⟨8, 9⟩]
      (.union (.union (.relation "A" ⟨1, 2⟩) (.relation "B" ⟨5, 6⟩) ⟨1, 6⟩)
        (.relation "A" ⟨10, 11⟩) ⟨1, 11⟩)  := by
    refine @Expr.Unites.union [_, _] [_] _ _ _ ?_ (.operand rfl)
    exact @Expr.Unites.union [_] [_] _ _ _ (.operand rfl) (.operand rfl)
  obtain ⟨t₂, ht₂, hrows⟩ := hchain db _ _ _ _ _ t₁ (by decide) hright hleft he₁ he₂ ht₁
  exact ⟨habsorb a b hsame, t₁, t₂, ht₁, ht₂, hrows⟩

end RelTrace
