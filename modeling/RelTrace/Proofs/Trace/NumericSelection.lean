import RelTrace.Proofs.Condition.Reading
import RelTrace.Proofs.Number.Spelling
import RelTrace.Proofs.Query.RoundTrip
import RelTrace.Proofs.Trace.Outcome

/-!
# Selections by numbers

A selection compares with a number that went through three readers: the text became tokens, the
tokens a condition and the condition a comparison. No token keeps a plus or a minus, so the number
that rows are compared with is the one that the literal spells without its signs. Plus signs are not
missed; a minus is.
-/

namespace RelTrace

open Token

theorem filter_isKept_of_isBlankText {gap : String} (h : Text.isBlankText gap) :
    gap.toList.filter isKept = [] :=
  List.filter_eq_nil_iff.mpr fun c hc => by
    simp [isKept_eq_false_of_isBlank (List.all_eq_true.mp h c hc)]

theorem Token.IsName.isPlain {a : String} (h : IsName a)
    (hsigns : ∀ c ∈ a.toList, isComparisonSign c = false) : IsPlain a.toList :=
  ⟨h.1, fun c hc => ⟨hsigns c hc, isBlank_eq_false_of_isKept (h.isKept c hc)⟩⟩

section Spelling

variable {cs : List Char} {c : Char}

theorem isIdentifierChar_of_isDecimalChar (h : isDecimalChar c) : isIdentifierChar c := by
  simp only [isDecimalChar, Bool.or_eq_true, decide_eq_true_eq] at h
  rcases h with ((h | rfl) | rfl) | rfl
  · simp [isIdentifierChar, Char.isAlphanum, h]
  any_goals rfl

theorem isComparisonSign_of_isDecimalChar (h : isDecimalChar c) : isComparisonSign c = false := by
  simp only [isDecimalChar, Bool.or_eq_true, decide_eq_true_eq] at h
  rcases h with ((h | rfl) | rfl) | rfl
  · simp only [isComparisonSign, Bool.or_eq_false_iff, decide_eq_false_iff_not]
    refine ⟨⟨⟨?_, ?_⟩, ?_⟩, ?_⟩ <;> rintro rfl <;> cases h
  any_goals rfl

/-- The tokens keep a decimal spelling but for its signs. -/
theorem IsDecimal.filter_isKept (h : IsDecimal cs) : cs.filter isKept = dropSigns cs := by
  refine List.filter_congr fun c hc => ?_
  by_cases hsign : c ≠ '+' ∧ c ≠ '-'
  · have hmem : c ∈ dropSigns cs := List.mem_filter.mpr ⟨hc, decide_eq_true hsign⟩
    have hname := isIdentifierChar_of_isDecimalChar (isDecimalChar_of_mem_dropSigns h c hmem)
    simp [isKept, hname, hsign]
  · obtain rfl | rfl : c = '+' ∨ c = '-' := by simpa [Classical.or_iff_not_imp_left] using hsign
    all_goals rfl

theorem IsDecimal.isPlain_dropSigns (h : IsDecimal cs) : IsPlain (dropSigns cs) := by
  refine ⟨(isDecimal_dropSigns h).ne_nil, fun c hc => ?_⟩
  have hchar := isDecimalChar_of_mem_dropSigns h c hc
  refine ⟨isComparisonSign_of_isDecimalChar hchar, isBlank_eq_false_of_isKept ?_⟩
  simp [isKept, isIdentifierChar_of_isDecimalChar hchar]

end Spelling

theorem Number.exists_read?_dropSigns {t : String} {n : Number} (h : Number.read? t = some n) :
    ∃ m, Number.read? (String.ofList (dropSigns t.toList)) = some m ∧
      ('-' ∉ t.toList → m = n) := by
  have hdecimal := isDecimal_of_read? h
  obtain ⟨d, hd⟩ :=
    Option.isSome_iff_exists.mp (Decimal.isSome_read?_iff.mpr (isDecimal_dropSigns hdecimal))
  refine ⟨_, by rw [Number.read?, String.toList_ofList, hd]; rfl, fun hminus => ?_⟩
  rw [Decimal.read?_dropSigns hdecimal hminus] at hd
  rw [Number.read?, hd] at h
  exact Option.some.inj h

/-- A selection by any text keeps the rows that satisfy what the tokens keep of the text. -/
theorem exists_run_select {db : Lookup} {raw r : String} (hr : IsName r) (hraw : ']' ∉ raw.toList) :
    ∃ t, (run db ("σ[" ++ raw ++ "](" ++ r ++ ")")).value = .ok t ∧
      t.result.rows = ((db r).getD []).select
        (Condition.read (String.ofList (raw.toList.filter isKept))) := by
  have hspells : Spells .primary _ (.select (String.ofList (raw.toList.filter isKept))
      (.relation r ⟨0, 0⟩) ⟨0, 0⟩) :=
    (Spells.relation hr).expression.selectRaw hraw
  have hquery : ("σ[" ++ raw ++ "](" ++ r ++ ")").toList =
      'σ' :: '[' :: (raw.toList ++ ']' :: '(' :: (r.toList ++ [')'])) := by
    simp
  rw [← hquery] at hspells
  obtain ⟨e, he, herase⟩ := hspells.compile
  have hrows := Expr.rows?_eq_of_eraseSpans_eq db herase
  rw [Expr.rows?_select] at hrows
  exact run_eq_ok_of_rows? he hrows

section Selection

variable {a r t gap gap' : String} {op : Comparator} {n : Number}

/-- What the tokens keep of a comparison with a number. -/
theorem filter_isKept_comparison (ha : IsName a) (hgap : Text.isBlankText gap)
    (hgap' : Text.isBlankText gap') (ht : IsDecimal t.toList) :
    (a ++ gap ++ op.symbol ++ gap' ++ t).toList.filter isKept =
      a.toList ++ op.symbol.toList ++ dropSigns t.toList := by
  have hname : a.toList.filter isKept = a.toList := List.filter_eq_self.mpr ha.isKept
  have hsymbol : op.symbol.toList.filter isKept = op.symbol.toList := by cases op <;> rfl
  simp only [String.toList_append, List.filter_append, hname, hsymbol, ht.filter_isKept,
    filter_isKept_of_isBlankText hgap, filter_isKept_of_isBlankText hgap', List.append_nil]

theorem bracket_not_mem_comparison (ha : IsName a) (hgap : Text.isBlankText gap)
    (hgap' : Text.isBlankText gap') (ht : IsDecimal t.toList) :
    ']' ∉ (a ++ gap ++ op.symbol ++ gap' ++ t).toList := by
  intro hmem
  have hkept := List.mem_filter.mpr ⟨hmem, (rfl : isKept ']' = true)⟩
  rw [filter_isKept_comparison ha hgap hgap' ht] at hkept
  -- What is kept belongs to identifiers, and a bracket does not.
  have hname : isIdentifierChar ']' := by
    rcases List.mem_append.mp hkept with h | h
    · rcases List.mem_append.mp h with h | h
      · exact ha.2.2 _ h
      · revert h
        cases op <;> decide
    · exact isIdentifierChar_of_isDecimalChar (isDecimalChar_of_mem_dropSigns ht _ h)
  cases hname

/-- A selection by a number succeeds and keeps the rows that compare with the number that the
literal spells without its signs. Without a minus, that is the number of the literal. -/
theorem selection_compares_unsigned_literal {db : Lookup} (ha : IsName a)
    (hsigns : ∀ c ∈ a.toList, isComparisonSign c = false) (hr : IsName r) (hop : op ≠ .different)
    (hgap : Text.isBlankText gap) (hgap' : Text.isBlankText gap') (ht : Number.read? t = some n) :
    ∃ m trace, Number.read? (String.ofList (dropSigns t.toList)) = some m ∧
      ('-' ∉ t.toList → m = n) ∧
      (run db ("σ[" ++ (a ++ gap ++ op.symbol ++ gap' ++ t) ++ "](" ++ r ++ ")")).value =
        .ok trace ∧
      trace.result.rows = ((db r).getD []).filter (Comparison.holds ⟨a, op, .number m⟩) := by
  have hdecimal := Number.isDecimal_of_read? ht
  obtain ⟨m, hm, hminus⟩ := Number.exists_read?_dropSigns ht
  have hraw : ']' ∉ (a ++ gap ++ op.symbol ++ gap' ++ t).toList :=
    bracket_not_mem_comparison ha hgap hgap' hdecimal
  obtain ⟨trace, hrun, hrows⟩ := exists_run_select hr hraw
  refine ⟨m, trace, hm, hminus, hrun, ?_⟩
  rw [hrows, filter_isKept_comparison ha hgap hgap' hdecimal, Condition.read,
    Comparison.read?_eq (ha.isPlain hsigns) hdecimal.isPlain_dropSigns hop]
  simp only [Comparison.readLiteral, hm, String.ofList_toList]
  rfl

end Selection

theorem selection_compares_unsigned_literal_thousand :
    let db : Lookup := fun _ => some [.ofList [("a", .number .zero)]]
    ∃ n trace, Number.read? "+1e+3" = some n ∧
      (run db ("σ[" ++ ("a" ++ " " ++ ">=" ++ " " ++ "+1e+3") ++ "](" ++ "R" ++ ")")).value =
        .ok trace ∧
      trace.result.rows =
        ((db "R").getD []).filter (Comparison.holds ⟨"a", .atLeast, .number n⟩) := by
  intro db
  obtain ⟨n, hn⟩ : ∃ n, Number.read? "+1e+3" = some n := ⟨_, rfl⟩
  have ha : IsName "a" := ⟨by decide, by decide, List.forall_mem_singleton.mpr rfl⟩
  have hr : IsName "R" := ⟨by decide, by decide, List.forall_mem_singleton.mpr rfl⟩
  obtain ⟨m, trace, -, hminus, hrun, hrows⟩ :=
    @selection_compares_unsigned_literal "a" "R" "+1e+3" " " " " .atLeast n db
      ha (List.forall_mem_singleton.mpr rfl) hr (by decide) rfl rfl hn
  exact ⟨n, trace, hn, hrun, hminus (by decide) ▸ hrows⟩

/-- A minus is missed. -/
theorem selection_misses_minus :
    let db : Lookup := fun _ => some [.ofList [("a", .number .zero)]]
    ∃ n trace, Number.read? "-1" = some n ∧ (run db "σ[a>=-1](R)").value = .ok trace ∧
      trace.result.rows ≠
        ((db "R").getD []).filter (Comparison.holds ⟨"a", .atLeast, .number n⟩) := by
  intro db
  have he : (compile "σ[a>=-1](R)").value =
      .ok (.select "a>=1" (.relation "R" ⟨9, 10⟩) ⟨0, 11⟩) := rfl
  have hrows : (Expr.select "a>=1" (.relation "R" ⟨9, 10⟩) ⟨0, 11⟩).rows? db =
      some (((db "R").getD []).select (Condition.read "a>=1")) := rfl
  obtain ⟨trace, hrun, hresult⟩ := run_eq_ok_of_rows? he hrows
  refine ⟨Decimal.toNumber true ⟨1, 0⟩, trace, rfl, hrun, fun heq => ?_⟩
  rw [hresult] at heq
  have hkept : (((db "R").getD []).select (Condition.read "a>=1")).length = 0 := by decide +kernel
  have hclaimed : (((db "R").getD []).filter
      (Comparison.holds ⟨"a", .atLeast, .number (Decimal.toNumber true ⟨1, 0⟩)⟩)).length = 1 := by
    decide +kernel
  rw [heq, hclaimed] at hkept
  cases hkept

end RelTrace
