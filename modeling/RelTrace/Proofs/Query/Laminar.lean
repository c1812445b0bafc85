import RelTrace.Proofs.Query.Placement
import RelTrace.Proofs.Query.WellFormed

/-!
# Spans of a compiled query

The span of a node begins with one token of the query and ends with another. It covers what the node
was read from and nothing around it, so a name covers itself, an operand lies strictly inside the
parentheses of its operator, and the operands of a union or a join are the ends of the whole, apart
from each other. The spans of a tree are therefore a laminar family: any two of them are nested or
disjoint.

## Main definitions

* `Expr.LiesIn`: how the span of a node lies in the query and around those of its operands.
* `Span.Laminar`: different spans that are nested or disjoint.
-/

namespace RelTrace

open Grammar Token

/-- The first span lies within the second. -/
def Span.Within (s t : Span) : Prop := t.start ≤ s.start ∧ s.stop ≤ t.stop

/-- The spans differ, and they are nested or disjoint. -/
def Span.Laminar (s t : Span) : Prop :=
  s ≠ t ∧ (s.Within t ∨ t.Within s ∨ s.stop ≤ t.start ∨ t.stop ≤ s.start)

/-- The span is not empty and lies in the query. A relation covers its name. A projection or a
selection runs from its symbol to a closing parenthesis, with its operand inside. A union or a join
runs from the start of its left operand to the end of the right one, with a gap between them. -/
def Expr.LiesIn (query : String) (e : Expr) : Prop :=
  e.span.start < e.span.stop ∧ e.span.stop ≤ query.length ∧
    match e with
    | relation name s => s.slice? query = some name
    | project _ operand s =>
      (∃ inside, s.slice? query = some ("π" ++ inside ++ ")")) ∧
        s.start < operand.span.start ∧ operand.span.stop < s.stop
    | select _ operand s =>
      (∃ inside, s.slice? query = some ("σ" ++ inside ++ ")")) ∧
        s.start < operand.span.start ∧ operand.span.stop < s.stop
    | union l r s | join _ l r s =>
      s.start = l.span.start ∧ s.stop = r.span.stop ∧ l.span.stop < r.span.start

/-- The span of the tree begins with one of the tokens and ends with one of them. -/
def Expr.SpansTokens (ts : List Token) (e : Expr) : Prop :=
  ∃ t ∈ ts, ∃ u ∈ ts, e.span = ⟨t.position, u.stop⟩

variable {query : String} {n : Nonterminal} {e l r : Expr} {head ts ls cs rs : List Token}
  {t u o q : Token}

namespace Token

theorem IsLexeme.position_lt_stop (h : t.IsLexeme) : t.position < t.stop := by
  have hne : t.text.toList ≠ [] := by
    cases hsymbol : t.kind.symbol? with
    | some c =>
      have htext : t.text = String.ofList [c] := by simpa [IsLexeme, hsymbol] using h
      simp [htext]
    | none => exact (h.isName (Kind.symbol?_eq_none.mp hsymbol)).1
  have hpos := List.length_pos_iff.mpr hne
  rw [String.length_toList] at hpos
  simp only [stop]
  omega

theorem IsLexeme.text_eq {c : Char} (h : t.IsLexeme) (hkind : t.kind.symbol? = some c) :
    t.text = String.ofList [c] := by
  simpa [IsLexeme, hkind] using h

/-- The tokens of a text that begins at a position stand in the text. -/
theorem bounds_of_mem_scan {position : Nat} {cs : List Char} (h : t ∈ scan position [] cs) :
    position ≤ t.position ∧ t.position < t.stop ∧ t.stop ≤ position + cs.length := by
  have hplaced := placed_scan (List.replicate position ' ') [] cs
  simp only [List.length_replicate, List.length_nil, Nat.add_zero] at hplaced
  have hle := (hplaced.standsIn t h).add_length_le
  have hlt := (isLexeme_of_mem_scan .nil h).position_lt_stop
  simp only [List.reverse_nil, List.append_nil, List.length_append, List.length_replicate,
    String.length_toList] at hle
  exact ⟨hplaced.start_le t h, hlt, hle⟩

/-- A token covers its text. -/
theorem StandsIn.slice? (h : t.StandsIn query.toList) : t.span.slice? query = some t.text :=
  Span.slice?_of_blockAt (s := t.span) h rfl

/-- From one token to a later one a span covers both and what stands between them. -/
theorem StandsIn.slice?_join (ht : t.StandsIn query.toList) (hu : u.StandsIn query.toList)
    (hle : t.stop ≤ u.position) :
    ∃ inside, (⟨t.position, u.stop⟩ : Span).slice? query = some (t.text ++ inside ++ u.text) := by
  obtain ⟨middle, hblock, hposition⟩ := BlockAt.join ht hu (by rwa [String.length_toList])
  refine ⟨String.ofList middle, Span.slice?_of_blockAt (by simpa using hblock) ?_⟩
  simp only [stop, hposition, List.length_append, String.length_toList, String.length_append,
    String.length_ofList]
  omega

end Token

/-- Later tokens of a query stand apart from earlier ones. -/
theorem Token.stop_le_of_sublist (h : (ls ++ rs).Sublist (tokenize query)) (ht : t ∈ ls)
    (hu : u ∈ rs) : t.stop ≤ u.position :=
  (List.pairwise_append.mp ((placed_tokenize query).ordered.sublist h)).2.2 t ht u hu

namespace Expr

theorem SpansTokens.mono (h : e.SpansTokens ts) (hsubset : ts ⊆ rs) : e.SpansTokens rs := by
  obtain ⟨t, ht, u, hu, hspan⟩ := h
  exact ⟨t, hsubset ht, u, hsubset hu, hspan⟩

/-- From the start of one tree to the end of another is from one token to another. -/
theorem SpansTokens.ends (hl : l.SpansTokens ls) (hr : r.SpansTokens rs) (hls : ls ⊆ ts)
    (hrs : rs ⊆ ts) : (unite l r).SpansTokens ts := by
  obtain ⟨t, ht, _, _, hstart⟩ := hl
  obtain ⟨_, _, u, hu, hstop⟩ := hr
  refine ⟨t, hls ht, u, hrs hu, ?_⟩
  rw [unite, hstart, hstop]
  rfl

/-- Spans of earlier tokens end before later tokens. -/
theorem SpansTokens.stop_le (h : e.SpansTokens ls) (hsub : (ls ++ rs).Sublist (tokenize query))
    (hu : u ∈ rs) : e.span.stop ≤ u.position := by
  obtain ⟨_, _, t, ht, hspan⟩ := h
  rw [hspan]
  exact stop_le_of_sublist hsub ht hu

/-- Spans of later tokens begin after earlier tokens. -/
theorem SpansTokens.le_start (h : e.SpansTokens rs) (hsub : (ls ++ rs).Sublist (tokenize query))
    (ht : t ∈ ls) : t.stop ≤ e.span.start := by
  obtain ⟨u, hu, _, _, hspan⟩ := h
  rw [hspan]
  exact stop_le_of_sublist hsub ht hu

end Expr

/-- What is derived spans some of its tokens. -/
theorem Grammar.Derives.spansTokens (h : Derives n ts e) : e.SpansTokens ts := by
  induction h with
  | @relation t => exact ⟨t, by simp, t, by simp, rfl⟩
  | group _ _ _ ih => exact ih.mono (by simp)
  | @projection o _ _ _ _ _ q => exact ⟨o, by simp, q, by simp, rfl⟩
  | @selection o _ _ _ _ _ q => exact ⟨o, by simp, q, by simp, rfl⟩
  | single _ ih => exact ih
  | joins _ ih => exact ih
  | join _ _ _ _ _ _ _ ihl ihr | union _ _ _ ihl ihr =>
    exact ihl.ends ihr (List.subset_append_left _ _) fun t ht => by simp [ht]

section Nodes

theorem Token.isLexeme_of_sublist (h : ts.Sublist (tokenize query)) (ht : t ∈ ts) : t.IsLexeme :=
  isLexeme_of_mem_scan .nil (h.subset ht)

theorem Token.standsIn_of_sublist (h : ts.Sublist (tokenize query)) (ht : t ∈ ts) :
    t.StandsIn query.toList :=
  (placed_tokenize query).standsIn t (h.subset ht)

/-- A name lies in the query as its token does. -/
theorem Token.liesIn_relation (h : t ∈ tokenize query) :
    (Expr.relation t.text t.span).LiesIn query := by
  have hlexeme := isLexeme_of_sublist (List.Sublist.refl _) h
  have hstands := standsIn_of_sublist (List.Sublist.refl _) h
  exact ⟨hlexeme.position_lt_stop, hstands.stop_le, hstands.slice?⟩

theorem sublist_of_enclosed {whole : List Token} (h : (ls ++ ts ++ rs).Sublist whole) :
    ts.Sublist whole :=
  ((List.sublist_append_right ls ts).trans (List.sublist_append_left _ rs)).trans h

/-- Between a symbol and a later parenthesis an operand lies strictly inside. -/
theorem liesIn_enclosed {c : Char} (hsub : (head ++ ts ++ [q]).Sublist (tokenize query))
    (ho : o ∈ head) (hsymbol : o.kind.symbol? = some c) (hq : q.kind = .rightParen)
    (he : e.SpansTokens ts) :
    o.position < q.stop ∧ q.stop ≤ query.length ∧
      (∃ inside, (⟨o.position, q.stop⟩ : Span).slice? query =
        some (String.ofList [c] ++ inside ++ ")")) ∧
      o.position < e.span.start ∧ e.span.stop < q.stop := by
  have hlexeme : o.IsLexeme := isLexeme_of_sublist hsub (by simp [ho])
  have hlexeme' : q.IsLexeme := isLexeme_of_sublist hsub (by simp)
  have hstands : q.StandsIn query.toList := standsIn_of_sublist hsub (by simp)
  have hle : o.stop ≤ q.position := stop_le_of_sublist hsub (by simp [ho]) (by simp)
  have hleft : o.stop ≤ e.span.start :=
    he.le_start ((List.sublist_append_left _ _).trans hsub) ho
  have hright : e.span.stop ≤ q.position :=
    (he.mono (List.subset_append_right head ts)).stop_le hsub (by simp)
  have ho_lt := hlexeme.position_lt_stop
  have hq_lt := hlexeme'.position_lt_stop
  obtain ⟨inside, hslice⟩ :=
    (standsIn_of_sublist hsub (by simp [ho])).slice?_join hstands hle
  rw [hlexeme.text_eq hsymbol, hlexeme'.text_eq (c := ')') (by rw [hq]; rfl)] at hslice
  exact ⟨by omega, hstands.stop_le, ⟨inside, hslice⟩, by omega, by omega⟩

/-- Tokens of a query stand between the first and the last of them. -/
theorem within_of_sublist (hsub : (o :: (ts ++ [q])).Sublist (tokenize query)) :
    ∀ u ∈ o :: (ts ++ [q]), u.span.Within ⟨o.position, q.stop⟩ := by
  intro u hu
  have hlt : ∀ x ∈ o :: (ts ++ [q]), x.position < x.stop :=
    fun x hx => (isLexeme_of_sublist hsub hx).position_lt_stop
  have ho := hlt o (by simp)
  have hq := hlt q (by simp)
  have hu_lt := hlt u hu
  have hinit : (o :: ts ++ [q]).Sublist (tokenize query) := hsub
  have htail : ([o] ++ (ts ++ [q])).Sublist (tokenize query) := hsub
  have hleft : u = o ∨ o.stop ≤ u.position := by
    rcases List.mem_cons.mp hu with rfl | hu
    · exact .inl rfl
    · exact .inr (stop_le_of_sublist htail (by simp) hu)
  have hright : u = q ∨ u.stop ≤ q.position := by
    rcases List.mem_append.mp (show u ∈ o :: ts ++ [q] from hu) with hu | hu
    · exact .inr (stop_le_of_sublist hinit hu (by simp))
    · exact .inl (List.mem_singleton.mp hu)
  constructor
  · change o.position ≤ u.position
    rcases hleft with rfl | hleft <;> omega
  · change u.stop ≤ q.stop
    rcases hright with rfl | hright <;> omega

/-- Operands with a symbol between them are the ends of a longer span. -/
theorem liesIn_apart {between : List Token}
    (hsub : (ls ++ o :: between ++ rs).Sublist (tokenize query)) (hl : l.SpansTokens ls)
    (hr : r.SpansTokens rs) (hl' : l.LiesIn query) (hr' : r.LiesIn query) :
    l.span.start < r.span.stop ∧ r.span.stop ≤ query.length ∧ l.span.stop < r.span.start := by
  have hleft : l.span.stop ≤ o.position :=
    hl.stop_le ((List.sublist_append_left _ _).trans hsub) (by simp)
  have hright : o.stop ≤ r.span.start := hr.le_start hsub (by simp)
  have ho := (isLexeme_of_sublist hsub (t := o) (by simp)).position_lt_stop
  have hl_lt := hl'.1
  have hr_lt := hr'.1
  exact ⟨by omega, hr'.2.1, by omega⟩

/-- Operands with a symbol between them lie in the query with all their nodes, and so does a root
that lies as their union would. -/
theorem forall_liesIn_of_operands {between : List Token} {root : Expr} {depth : Nat}
    (hsub : (ls ++ o :: between ++ rs).Sublist (tokenize query)) (hl : l.SpansTokens ls)
    (hr : r.SpansTokens rs) (hleft : ∀ node ∈ l.postorder (depth + 1), node.2.LiesIn query)
    (hright : ∀ node ∈ r.postorder (depth + 1), node.2.LiesIn query)
    (hroot : (Expr.unite l r).LiesIn query → root.LiesIn query) :
    ∀ node ∈ l.postorder (depth + 1) ++ r.postorder (depth + 1) ++ [(depth, root)],
      node.2.LiesIn query := by
  obtain ⟨hlt, hle, hapart⟩ := liesIn_apart hsub hl hr (hleft _ (l.mem_postorder_self _))
    (hright _ (r.mem_postorder_self _))
  refine List.forall_mem_append.mpr ⟨List.forall_mem_append.mpr ⟨hleft, hright⟩, ?_⟩
  exact List.forall_mem_singleton.mpr (hroot ⟨hlt, hle, rfl, rfl, hapart⟩)

end Nodes

/-- All nodes of what is derived from tokens of a query lie in the query. -/
theorem Grammar.Derives.liesIn (h : Derives n ts e) (hsub : ts.Sublist (tokenize query))
    (depth : Nat) : ∀ node ∈ e.postorder depth, node.2.LiesIn query := by
  induction h generalizing depth with
  | relation =>
    intro node hnode
    obtain rfl := List.mem_singleton.mp hnode
    exact liesIn_relation (hsub.subset (by simp))
  | @group p ts q e _ _ _ ih =>
    have hshape : ([p] ++ ts ++ [q]).Sublist (tokenize query) := by simpa using hsub
    exact ih (sublist_of_enclosed hshape) depth
  | @projection o b ns c p ts q names e ho _ hns _ _ hts hq ih =>
    have hshape : ((o :: b :: ns ++ [c, p]) ++ ts ++ [q]).Sublist (tokenize query) := by
      simpa using hsub
    refine List.forall_mem_append.mpr ⟨ih (sublist_of_enclosed hshape) (depth + 1), ?_⟩
    exact List.forall_mem_singleton.mpr
      (liesIn_enclosed hshape (c := 'π') (by simp) (by rw [ho]; rfl) hq hts.spansTokens)
  | @selection o b cs c p ts q e ho _ _ _ _ hts hq ih =>
    have hshape : ((o :: b :: cs ++ [c, p]) ++ ts ++ [q]).Sublist (tokenize query) := by
      simpa using hsub
    refine List.forall_mem_append.mpr ⟨ih (sublist_of_enclosed hshape) (depth + 1), ?_⟩
    exact List.forall_mem_singleton.mpr
      (liesIn_enclosed hshape (c := 'σ') (by simp) (by rw [ho]; rfl) hq hts.spansTokens)
  | single _ ih => exact ih hsub depth
  | @join ls j u b cs c rs l r hl _ _ _ _ _ hr ihl ihr =>
    have hshape : (ls ++ j :: (u :: b :: cs ++ [c]) ++ rs).Sublist (tokenize query) := by
      simpa using hsub
    exact forall_liesIn_of_operands hshape hl.spansTokens hr.spansTokens
      (ihl ((List.sublist_append_left ls _).trans hsub) (depth + 1))
      (ihr ((List.sublist_append_right _ rs).trans hshape) (depth + 1)) id
  | joins _ ih => exact ih hsub depth
  | @union ls u rs l r hl _ hr ihl ihr =>
    have hshape : (ls ++ u :: [] ++ rs).Sublist (tokenize query) := by simpa using hsub
    exact forall_liesIn_of_operands hshape hl.spansTokens hr.spansTokens
      (ihl ((List.sublist_append_left ls _).trans hsub) (depth + 1))
      (ihr ((List.sublist_append_right _ rs).trans hshape) (depth + 1)) id

namespace Span

variable {s t : Span}

theorem Within.refl (s : Span) : s.Within s := ⟨Nat.le_refl _, Nat.le_refl _⟩

theorem Within.trans {u : Span} (h : s.Within t) (h' : t.Within u) : s.Within u :=
  ⟨Nat.le_trans h'.1 h.1, Nat.le_trans h.2 h'.2⟩

theorem Within.laminar (h : s.Within t) (hlt : t.start < s.start ∨ s.stop < t.stop) :
    s.Laminar t := by
  refine ⟨?_, .inl h⟩
  rintro rfl
  omega

theorem laminar_of_stop_le (hs : s.start < s.stop) (h : s.stop ≤ t.start) : s.Laminar t := by
  refine ⟨?_, .inr (.inr (.inl h))⟩
  rintro rfl
  omega

/-- Spans that lie apart are both smaller than the span from one to the other. -/
theorem within_of_ends {l r : Span} (hl : l.start < l.stop) (hr : r.start < r.stop)
    (hstart : s.start = l.start) (hstop : s.stop = r.stop) (hapart : l.stop < r.start) :
    l.Within s ∧ l.stop < s.stop ∧ r.Within s ∧ s.start < r.start := by
  refine ⟨⟨?_, ?_⟩, ?_, ⟨?_, ?_⟩, ?_⟩ <;> omega

end Span

namespace Expr

variable {depth : Nat} {node : Nat × Expr}

/-- The span of a tree that lies in the query contains those of its nodes. -/
theorem within_of_mem_postorder (h : ∀ node ∈ e.postorder depth, node.2.LiesIn query)
    (hnode : node ∈ e.postorder depth) : node.2.span.Within e.span := by
  induction e generalizing depth with
  | relation =>
    obtain rfl := List.mem_singleton.mp hnode
    exact .refl _
  | project _ operand s ih | select _ operand s ih =>
    obtain ⟨hbelow, hroot⟩ := List.forall_mem_append.mp h
    obtain ⟨-, -, -, hstart, hstop⟩ := List.forall_mem_singleton.mp hroot
    rcases List.mem_append.mp hnode with hnode | hnode
    · exact (ih hbelow hnode).trans ⟨Nat.le_of_lt hstart, Nat.le_of_lt hstop⟩
    · obtain rfl := List.mem_singleton.mp hnode
      exact .refl _
  | union l r s ihl ihr | join _ l r s ihl ihr =>
    obtain ⟨hbelow, hroot⟩ := List.forall_mem_append.mp h
    obtain ⟨hleft, hright⟩ := List.forall_mem_append.mp hbelow
    obtain ⟨-, -, hstart, hstop, hapart⟩ := List.forall_mem_singleton.mp hroot
    obtain ⟨hl, -, hr, -⟩ := Span.within_of_ends (hleft _ (l.mem_postorder_self _)).1
      (hright _ (r.mem_postorder_self _)).1 hstart hstop hapart
    rcases List.mem_append.mp hnode with hnode | hnode
    · rcases List.mem_append.mp hnode with hnode | hnode
      · exact (ihl hleft hnode).trans hl
      · exact (ihr hright hnode).trans hr
    · obtain rfl := List.mem_singleton.mp hnode
      exact .refl _

/-- The spans of a tree that lies in the query are a laminar family. -/
theorem laminar_of_liesIn (h : ∀ node ∈ e.postorder depth, node.2.LiesIn query) :
    (e.postorder depth).Pairwise fun a b => a.2.span.Laminar b.2.span := by
  induction e generalizing depth with
  | relation => exact List.pairwise_singleton _ _
  | project _ operand s ih | select _ operand s ih =>
    obtain ⟨hbelow, hroot⟩ := List.forall_mem_append.mp h
    obtain ⟨-, -, -, hstart, hstop⟩ := List.forall_mem_singleton.mp hroot
    refine List.pairwise_append.mpr ⟨ih hbelow, List.pairwise_singleton _ _, fun a ha b hb => ?_⟩
    obtain rfl := List.mem_singleton.mp hb
    have ha' := within_of_mem_postorder hbelow ha
    exact (ha'.trans ⟨Nat.le_of_lt hstart, Nat.le_of_lt hstop⟩).laminar
      (.inl (Nat.lt_of_lt_of_le hstart ha'.1))
  | union l r s ihl ihr | join _ l r s ihl ihr =>
    obtain ⟨hbelow, hroot⟩ := List.forall_mem_append.mp h
    obtain ⟨hleft, hright⟩ := List.forall_mem_append.mp hbelow
    obtain ⟨-, -, hstart, hstop, hapart⟩ := List.forall_mem_singleton.mp hroot
    obtain ⟨hl, hl_lt, hr, hr_lt⟩ := Span.within_of_ends (hleft _ (l.mem_postorder_self _)).1
      (hright _ (r.mem_postorder_self _)).1 hstart hstop hapart
    refine List.pairwise_append.mpr ⟨List.pairwise_append.mpr ⟨ihl hleft, ihr hright, ?_⟩,
      List.pairwise_singleton _ _, fun a ha b hb => ?_⟩
    · intro a ha b hb
      have ha' := (within_of_mem_postorder hleft ha).2
      have hb' := (within_of_mem_postorder hright hb).1
      exact Span.laminar_of_stop_le (hleft a ha).1 (by omega)
    · obtain rfl := List.mem_singleton.mp hb
      rcases List.mem_append.mp ha with ha | ha
      · have ha' := within_of_mem_postorder hleft ha
        exact (ha'.trans hl).laminar (.inr (Nat.lt_of_le_of_lt ha'.2 hl_lt))
      · have ha' := within_of_mem_postorder hright ha
        exact (ha'.trans hr).laminar (.inl (Nat.lt_of_lt_of_le hr_lt ha'.1))

end Expr

/-- Every node of a compiled query lies in the query. -/
theorem liesIn_of_compile (h : (compile query).value = .ok e) (depth : Nat) :
    ∀ node ∈ e.postorder depth, node.2.LiesIn query :=
  (compile_eq_ok_iff_derives.mp h).liesIn (List.Sublist.refl _) depth

end RelTrace
