import RelTrace.Proofs.Query.Productions
import RelTrace.Proofs.Query.WellFormed

/-!
# Canonical text reads back

The canonical text of a well-formed tree is read as the tree again, up to spans, and no other tree
has a canonical text that is read as the tree. The text is built like the grammar: it follows the
shape of the tree and spells each node as its production is written.

## Main definitions

* `Spells`: the tokens of a text derive a tree, up to spans.
-/

namespace RelTrace

open Grammar Token

/-- The nonterminal symbol that the canonical text of a tree is an instance of. -/
def Expr.nonterminal : Expr → Nonterminal
  | relation _ _ | project _ _ _ | select _ _ _ => .primary
  | join _ _ _ _ => .joins
  | union _ _ _ => .expression

/-- Wherever the text stands, its tokens derive the tree, up to spans. -/
def Spells (n : Nonterminal) (cs : List Char) (e : Expr) : Prop :=
  ∀ position, ∃ e', Derives n (scan position [] cs) e' ∧ e'.eraseSpans = e.eraseSpans

variable {n : Nonterminal} {cs ls rs : List Char} {e l r : Expr} {span : Span}

theorem IsCondition.not_mem {delimiter : Char} {condition : String}
    (h : IsCondition delimiter condition) : delimiter ∉ condition.toList :=
  fun hmem => (h delimiter hmem).2 rfl

theorem IsCondition.keptText_eq {delimiter : Char} {condition : String}
    (h : IsCondition delimiter condition) : keptText condition = condition := by
  rw [keptText, List.filter_eq_self.mpr fun c hc => (h c hc).1, String.ofList_toList]

namespace Spells

theorem relation {name : String} (h : IsName name) :
    Spells .primary name.toList (.relation name span) := by
  intro position
  rw [h.scan]
  exact ⟨_, .relation rfl, rfl⟩

theorem group (h : Spells .expression cs e) : Spells .primary ('(' :: (cs ++ [')'])) e := by
  intro position
  obtain ⟨e', he, herase⟩ := h (position + 1)
  exact ⟨e', he.group_scan, herase⟩

theorem project {names : List String} (hnames : ∀ a ∈ names, IsName a)
    (h : Spells .expression cs e) :
    Spells .primary ('π' :: '[' :: ((", ".intercalate names).toList ++ ']' :: '(' :: (cs ++ [')'])))
      (.project names e span) := by
  intro position
  obtain ⟨e', he, herase⟩ := h _
  have hseparator : ", ".toList = ',' :: [' '] := rfl
  have hspace : ∀ c ∈ [' '], isKept c = false := List.forall_mem_singleton.mpr rfl
  have hlist := nameList_scan hseparator hspace hnames (position + 2)
  exact ⟨_, he.project_scan hlist, by simpa [Expr.eraseSpans, Expr.mapSpans] using herase⟩

/-- A condition may hold characters that no token keeps; they are lost. -/
theorem selectRaw {raw : String} (hraw : ']' ∉ raw.toList) (h : Spells .expression cs e) :
    Spells .primary ('σ' :: '[' :: (raw.toList ++ ']' :: '(' :: (cs ++ [')'])))
      (.select (keptText raw) e span) := by
  intro position
  obtain ⟨e', he, herase⟩ := h _
  exact ⟨_, he.select_scan hraw, by simpa [Expr.eraseSpans, Expr.mapSpans] using herase⟩

theorem select {condition : String} (hcondition : IsCondition ']' condition)
    (h : Spells .expression cs e) :
    Spells .primary ('σ' :: '[' :: (condition.toList ++ ']' :: '(' :: (cs ++ [')'])))
      (.select condition e span) := by
  simpa [hcondition.keptText_eq] using h.selectRaw hcondition.not_mem

theorem join {condition : String} (hcondition : IsCondition '}' condition)
    (hl : Spells .joins ls l) (hr : Spells .primary rs r) :
    Spells .joins (ls ++ ' ' :: '⋈' :: '_' :: '{' :: (condition.toList ++ '}' :: ' ' :: rs))
      (.join condition l r span) := by
  intro position
  obtain ⟨l', hl', hlerase⟩ := hl position
  obtain ⟨r', hr', hrerase⟩ := hr _
  refine ⟨_, hl'.join_scan hcondition.not_mem hr', ?_⟩
  rw [hcondition.keptText_eq]
  simpa [Expr.joinOn, Expr.eraseSpans, Expr.mapSpans] using ⟨hlerase, hrerase⟩

theorem union (hl : Spells .joins ls l) (hr : Spells .expression rs r) :
    Spells .expression (ls ++ ' ' :: '∪' :: ' ' :: rs) (.union l r span) := by
  intro position
  obtain ⟨l', hl', hlerase⟩ := hl position
  obtain ⟨r', hr', hrerase⟩ := hr _
  exact ⟨_, hl'.union_scan hr',
    by simpa [Expr.unite, Expr.eraseSpans, Expr.mapSpans] using ⟨hlerase, hrerase⟩⟩

theorem joins (h : Spells .primary cs e) : Spells .joins cs e := by
  intro position
  obtain ⟨e', he, herase⟩ := h position
  exact ⟨e', .single he, herase⟩

theorem expression (h : Spells n cs e) : Spells .expression cs e := by
  intro position
  obtain ⟨e', he, herase⟩ := h position
  exact ⟨e', he.expression, herase⟩

/-- Parentheses around a union make it the left operand of a union or a join. -/
theorem parenthesizeLeft {s : String} (h : Spells l.nonterminal s.toList l) :
    Spells .joins (Expr.parenthesize l.wrapsOnLeft s).toList l := by
  cases l with
  | relation | project | select => exact h.joins
  | join => exact h
  | union => simpa [Expr.parenthesize, Expr.wrapsOnLeft] using h.group.joins

/-- Parentheses around a union or a join make it the right operand of a join. -/
theorem parenthesizeRight {s : String} (h : Spells r.nonterminal s.toList r) :
    Spells .primary (Expr.parenthesize r.wrapsOnRight s).toList r := by
  cases r with
  | relation | project | select => exact h
  | join => simpa [Expr.parenthesize, Expr.wrapsOnRight] using h.expression.group
  | union => simpa [Expr.parenthesize, Expr.wrapsOnRight] using h.group

end Spells

/-- The canonical text of a well-formed tree spells the tree. -/
theorem Expr.WellFormed.spells_canonical (h : e.WellFormed) :
    Spells e.nonterminal e.canonical.toList e := by
  induction e with
  | relation => exact .relation h
  | project _ _ _ ih => simpa [canonical, nonterminal] using Spells.project h.1 (ih h.2).expression
  | select _ _ _ ih => simpa [canonical, nonterminal] using Spells.select h.1 (ih h.2).expression
  | union _ _ _ ihl ihr =>
    simpa [canonical, nonterminal] using
      Spells.union (ihl h.1).parenthesizeLeft (ihr h.2).expression
  | join _ _ _ _ ihl ihr =>
    simpa [canonical, nonterminal] using
      Spells.join h.1 (ihl h.2.1).parenthesizeLeft (ihr h.2.2).parenthesizeRight

theorem Spells.compile {query : String} (h : Spells n query.toList e) :
    ∃ e', (compile query).value = .ok e' ∧ e'.eraseSpans = e.eraseSpans := by
  obtain ⟨e', he, herase⟩ := h.expression 0
  exact ⟨e', compile_eq_ok_iff_derives.mpr he, herase⟩

theorem Expr.WellFormed.compile_canonical (h : e.WellFormed) :
    ∃ e', (compile e.canonical).value = .ok e' ∧ e'.eraseSpans = e.eraseSpans :=
  h.spells_canonical.compile

/-- Exactly the well-formed trees are read, each from its canonical text. -/
theorem canonical_round_trip :
    (∀ (query : String) (e : Expr), (compile query).value = .ok e → e.WellFormed) ∧
      (∀ e : Expr, (∃ e', (compile e.canonical).value = .ok e' ∧ e'.eraseSpans = e.eraseSpans) ↔
        e.WellFormed) ∧
      ∀ (query : String) (e : Expr), (compile query).value = .ok e →
        ∃ e', (compile e.canonical).value = .ok e' ∧ e'.eraseSpans = e.eraseSpans ∧
          e'.canonical = e.canonical := by
  refine ⟨fun query e h => wellFormed_of_compile h, fun e => ⟨?_, fun h => h.compile_canonical⟩, ?_⟩
  · rintro ⟨e', he, herase⟩
    have hwf : e'.eraseSpans.WellFormed :=
      (Expr.wellFormed_mapSpans _ _).mpr (wellFormed_of_compile he)
    exact (Expr.wellFormed_mapSpans _ _).mp (herase ▸ hwf)
  · intro query e h
    obtain ⟨e', he, herase⟩ := (wellFormed_of_compile h).compile_canonical
    exact ⟨e', he, herase, Expr.canonical_eq_of_eraseSpans_eq herase⟩

theorem canonical_round_trip_join :
    ∃ e, (compile "(A ∪ (B)) ⋈_\x7bx = y\x7d σ[_n>1](C)").value = .ok e ∧ e.WellFormed ∧
      ∃ e', (compile e.canonical).value = .ok e' ∧ e'.eraseSpans = e.eraseSpans ∧
        e'.canonical = e.canonical := by
  have h : (compile "(A ∪ (B)) ⋈_\x7bx = y\x7d σ[_n>1](C)").value =
      .ok (.join "x=y" (.union (.relation "A" ⟨1, 2⟩) (.relation "B" ⟨6, 7⟩) ⟨1, 7⟩)
        (.select "_n>1" (.relation "C" ⟨28, 29⟩) ⟨20, 30⟩) ⟨1, 30⟩) := rfl
  exact ⟨_, h, canonical_round_trip.1 _ _ h, canonical_round_trip.2.2 _ _ h⟩

end RelTrace
