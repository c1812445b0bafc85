import RelTrace.Proofs.Query.Acceptance
import RelTrace.Proofs.Query.Lexical
import RelTrace.Proofs.Query.Spans
import RelTrace.Query.Compile

/-!
# Well-formed trees

A tree can be written as a query only if its names are names and its conditions consist of
characters that tokens keep, without the delimiter that would end them. Every tree that is read is
of this kind.

## Main definitions

* `Expr.WellFormed`: the trees that a query can have.
-/

namespace RelTrace

open Grammar Token

/-- The condition can be written before its closing delimiter. -/
def IsCondition (delimiter : Char) (condition : String) : Prop :=
  ∀ c ∈ condition.toList, isKept c ∧ c ≠ delimiter

/-- The names are names and the conditions can be written. -/
def Expr.WellFormed : Expr → Prop
  | relation name _ => IsName name
  | project attributes e _ => (∀ a ∈ attributes, IsName a) ∧ e.WellFormed
  | select condition e _ => IsCondition ']' condition ∧ e.WellFormed
  | union l r _ => l.WellFormed ∧ r.WellFormed
  | join condition l r _ => IsCondition '}' condition ∧ l.WellFormed ∧ r.WellFormed

instance (delimiter : Char) : DecidablePred (IsCondition delimiter) := fun condition =>
  List.decidableBAll _ condition.toList

/-- Whether a tree is well formed is found out node by node. -/
def Expr.decideWellFormed : (e : Expr) → Decidable e.WellFormed
  | relation name _ => inferInstanceAs (Decidable (IsName name))
  | project attributes e _ =>
    have := e.decideWellFormed
    inferInstanceAs (Decidable ((∀ a ∈ attributes, IsName a) ∧ e.WellFormed))
  | select condition e _ =>
    have := e.decideWellFormed
    inferInstanceAs (Decidable (IsCondition ']' condition ∧ e.WellFormed))
  | union l r _ =>
    have := l.decideWellFormed
    have := r.decideWellFormed
    inferInstanceAs (Decidable (l.WellFormed ∧ r.WellFormed))
  | join condition l r _ =>
    have := l.decideWellFormed
    have := r.decideWellFormed
    inferInstanceAs (Decidable (IsCondition '}' condition ∧ l.WellFormed ∧ r.WellFormed))

instance : DecidablePred Expr.WellFormed := Expr.decideWellFormed

@[simp] theorem Expr.wellFormed_mapSpans (f : Span → Span) (e : Expr) :
    (e.mapSpans f).WellFormed ↔ e.WellFormed := by
  induction e with
  | relation => rfl
  | project _ _ _ ih | select _ _ _ ih => simp [mapSpans, WellFormed, ih]
  | union _ _ _ ihl ihr | join _ _ _ _ ihl ihr => simp [mapSpans, WellFormed, ihl, ihr]

variable {n : Nonterminal} {ts : List Token} {e : Expr} {names : List String}

theorem Token.IsLexeme.isName {t : Token} (h : t.IsLexeme) (hkind : t.kind = .identifier) :
    IsName t.text := by
  simpa [IsLexeme, hkind, Kind.symbol?] using h

theorem Token.IsName.isKept {s : String} (h : IsName s) : ∀ c ∈ s.toList, isKept c := by
  intro c hc
  simp [Token.isKept, h.2.2 c hc]

theorem Token.IsLexeme.isCondition {t : Token} {delimiter : Char} {stop : Kind} (h : t.IsLexeme)
    (hstop : Kind.ofSymbol? delimiter = some stop) (hdelimiter : isIdentifierChar delimiter = false)
    (hkind : t.kind ≠ stop) : IsCondition delimiter t.text := by
  cases hsymbol : t.kind.symbol? with
  | some c =>
    have hc := Kind.ofSymbol?_eq_some_iff.mpr hsymbol
    have htext : t.text = String.ofList [c] := by simpa [IsLexeme, hsymbol] using h
    have hne : c ≠ delimiter := by
      rintro rfl
      exact hkind (Option.some.inj (hc.symm.trans hstop))
    simp [IsCondition, htext, Token.isKept, hc, hne]
  | none =>
    intro c hc
    have hname := h.isName (Kind.symbol?_eq_none.mp hsymbol)
    refine ⟨hname.isKept c hc, ?_⟩
    rintro rfl
    exact Bool.false_ne_true (hdelimiter.symm.trans (hname.2.2 c hc))

theorem isCondition_joinTexts {delimiter : Char} {cs : List Token}
    (h : ∀ t ∈ cs, IsCondition delimiter t.text) : IsCondition delimiter (joinTexts cs) := by
  induction cs with
  | nil => simp [IsCondition]
  | cons t cs ih =>
    intro c hc
    simp only [joinTexts_cons, String.toList_append, List.mem_append] at hc
    rcases hc with hc | hc
    · exact h t (by simp) c hc
    · exact ih (fun u hu => h u (by simp [hu])) c hc

theorem Grammar.Names.isName (h : Names ts names) (hts : ∀ t ∈ ts, t.IsLexeme) :
    ∀ a ∈ names, IsName a := by
  induction h with
  | single ht => simpa using (hts _ (by simp)).isName ht
  | @more ts names c t _ _ ht ih =>
    have hname := (hts t (by simp)).isName ht
    have hnames := ih fun u hu => hts u (by simp [hu])
    exact List.forall_mem_append.mpr ⟨hnames, List.forall_mem_singleton.mpr hname⟩

theorem Grammar.NameList.isName (h : NameList ts names) (hts : ∀ t ∈ ts, t.IsLexeme) :
    ∀ a ∈ names, IsName a := by
  cases h with
  | empty => simp
  | names h => exact h.isName hts

/-- What the grammar derives from symbols and names is well formed. -/
theorem Grammar.Derives.wellFormed (h : Derives n ts e) (hts : ∀ t ∈ ts, t.IsLexeme) :
    e.WellFormed := by
  induction h with
  | relation ht => exact (hts _ (by simp)).isName ht
  | group _ _ _ ih => exact ih fun t ht => hts t (by simp [ht])
  | projection _ _ hns _ _ _ _ ih =>
    exact ⟨hns.isName fun t ht => hts t (by simp [ht]), ih fun t ht => hts t (by simp [ht])⟩
  | selection _ _ hcs _ _ _ _ ih =>
    refine ⟨isCondition_joinTexts fun t ht => ?_, ih fun t ht => hts t (by simp [ht])⟩
    exact (hts t (by simp [ht])).isCondition rfl rfl (hcs t ht)
  | single _ ih => exact ih hts
  | join _ _ _ _ hcs _ _ ihl ihr =>
    refine ⟨isCondition_joinTexts fun t ht => ?_, ihl fun t ht => hts t (by simp [ht]),
      ihr fun t ht => hts t (by simp [ht])⟩
    exact (hts t (by simp [ht])).isCondition rfl rfl (hcs t ht)
  | joins _ ih => exact ih hts
  | union _ _ _ ihl ihr =>
    exact ⟨ihl fun t ht => hts t (by simp [ht]), ihr fun t ht => hts t (by simp [ht])⟩

theorem value_compile (query : String) : (compile query).value = parse (tokenize query) := by
  simp only [compile, tokenizeLogged, parseLogged, Logged.value_bind]
  cases parse (tokenize query) <;> rfl

/-- A query has the tree that its tokens derive. -/
theorem compile_eq_ok_iff_derives {query : String} :
    (compile query).value = .ok e ↔ Derives .expression (tokenize query) e := by
  rw [value_compile, parse_eq_ok_iff_derives]

theorem wellFormed_of_compile {query : String} (h : (compile query).value = .ok e) :
    e.WellFormed :=
  (compile_eq_ok_iff_derives.mp h).wellFormed fun _ ht => isLexeme_of_mem_scan .nil ht

end RelTrace
