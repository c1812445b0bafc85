import RelTrace.Proofs.Query.Composition
import RelTrace.Proofs.Query.Laminar

/-!
# Slices of queries

A relation, a projection or a selection is read from tokens that stand together, from one end of
its span to the other. No token reaches over an end of the span, so that the text of the span, cut
out of the query, has these tokens and no others. It is a query of its own, for the same tree.

## Main definitions

* `Span.covers`: the tokens within a span.
* `Expr.HasBlockIn`: a tree that is derived from tokens that stand together.
-/

namespace RelTrace

open Grammar Token

/-- The token stands within the span. -/
def Span.covers (s : Span) (t : Token) : Bool := s.start ≤ t.position && t.stop ≤ s.stop

/-- Some of the tokens, which stand together within the span of the tree, derive the tree. -/
def Expr.HasBlockIn (ts : List Token) (e : Expr) : Prop :=
  ∃ us, us <:+: ts ∧ Derives .primary us e ∧ ∀ t ∈ us, t.span.Within e.span

variable {query : String} {n : Nonterminal} {e : Expr} {ts us before after : List Token} {s : Span}
  {depth : Nat} {node : Nat × Expr}

theorem Span.covers_iff {t : Token} : s.covers t ↔ t.span.Within s := by
  simp [covers, Within, Token.span]

/-- Of some tokens a span covers those that stand neither before nor after it. -/
theorem filter_covers (hbefore : ∀ t ∈ before, t.position < t.stop ∧ t.stop ≤ s.start)
    (hus : ∀ t ∈ us, t.span.Within s)
    (hafter : ∀ t ∈ after, t.position < t.stop ∧ s.stop ≤ t.position) :
    (before ++ us ++ after).filter s.covers = us := by
  have hbefore_nil : before.filter s.covers = [] := by
    rw [List.filter_eq_nil_iff]
    intro t ht hcovers
    have hplace := hbefore t ht
    have hwithin := (Span.covers_iff.mp hcovers).1
    simp only [Token.span] at hwithin
    omega
  have hafter_nil : after.filter s.covers = [] := by
    rw [List.filter_eq_nil_iff]
    intro t ht hcovers
    have hplace := hafter t ht
    have hwithin := (Span.covers_iff.mp hcovers).2
    simp only [Token.span] at hwithin
    omega
  have hus_all : us.filter s.covers = us :=
    List.filter_eq_self.mpr fun t ht => Span.covers_iff.mpr (hus t ht)
  rw [List.filter_append, List.filter_append, hbefore_nil, hus_all, hafter_nil, List.nil_append,
    List.append_nil]

theorem Expr.HasBlockIn.mono (h : e.HasBlockIn us) (hblock : us <:+: ts) : e.HasBlockIn ts := by
  obtain ⟨block, hinside, hderives⟩ := h
  exact ⟨block, hinside.trans hblock, hderives⟩

/-- A node below an operand has a block among the tokens of the operand. -/
theorem hasBlockIn_of_operand {root : Expr} {d : Nat} (hinside : us <:+: ts)
    (hnode : node ∈ e.postorder depth ++ [(d, root)])
    (hoperand : node ∈ e.postorder depth → node.2.HasBlockIn us) (hroot : root.HasBlockIn ts) :
    node.2.HasBlockIn ts := by
  rcases List.mem_append.mp hnode with hnode | hnode
  · exact (hoperand hnode).mono hinside
  · obtain rfl := List.mem_singleton.mp hnode
    exact hroot

/-- A node below one of two operands has a block among the tokens of that operand. -/
theorem hasBlockIn_of_operands {l r root : Expr} {ls rs : List Token} {d : Nat}
    (hls : ls <:+: ts) (hrs : rs <:+: ts)
    (hnode : node ∈ l.postorder depth ++ r.postorder depth ++ [(d, root)])
    (hroot : node ≠ (d, root)) (hleft : node ∈ l.postorder depth → node.2.HasBlockIn ls)
    (hright : node ∈ r.postorder depth → node.2.HasBlockIn rs) : node.2.HasBlockIn ts := by
  rcases List.mem_append.mp hnode with hnode | hnode
  · rcases List.mem_append.mp hnode with hnode | hnode
    · exact (hleft hnode).mono hls
    · exact (hright hnode).mono hrs
  · exact absurd (List.mem_singleton.mp hnode) hroot

/-- All nodes but unions and joins are derived from tokens that stand together. -/
theorem Grammar.Derives.hasBlockIn (h : Derives n ts e) (hsub : ts.Sublist (tokenize query))
    (hnode : node ∈ e.postorder depth)
    (hoperator : node.2.operator ≠ .union ∧ node.2.operator ≠ .join) : node.2.HasBlockIn ts := by
  induction h generalizing depth with
  | @relation t ht =>
    obtain rfl := List.mem_singleton.mp hnode
    exact ⟨[t], List.infix_rfl, .relation ht, List.forall_mem_singleton.mpr (.refl _)⟩
  | @group p ts q e _ _ _ ih =>
    have hinside : ts <:+: p :: (ts ++ [q]) := ⟨[p], [q], by simp⟩
    exact (ih (hinside.sublist.trans hsub) hnode).mono hinside
  | @projection o b ns c p ts q names e ho hb hns hc hp hts hq ih =>
    have hinside : ts <:+: o :: b :: (ns ++ c :: p :: (ts ++ [q])) :=
      ⟨o :: b :: ns ++ [c, p], [q], by simp⟩
    refine hasBlockIn_of_operand hinside hnode (ih (hinside.sublist.trans hsub))
      ⟨_, List.infix_rfl, .projection ho hb hns hc hp hts hq, ?_⟩
    have hshape : (o :: (b :: ns ++ c :: p :: ts ++ [q])).Sublist (tokenize query) := by
      simpa using hsub
    simpa [Expr.span] using within_of_sublist hshape
  | @selection o b cs c p ts q e ho hb hcs hc hp hts hq ih =>
    have hinside : ts <:+: o :: b :: (cs ++ c :: p :: (ts ++ [q])) :=
      ⟨o :: b :: cs ++ [c, p], [q], by simp⟩
    refine hasBlockIn_of_operand hinside hnode (ih (hinside.sublist.trans hsub))
      ⟨_, List.infix_rfl, .selection ho hb hcs hc hp hts hq, ?_⟩
    have hshape : (o :: (b :: cs ++ c :: p :: ts ++ [q])).Sublist (tokenize query) := by
      simpa using hsub
    simpa [Expr.span] using within_of_sublist hshape
  | single _ ih => exact ih hsub hnode
  | @join ls j u b cs c rs l r _ _ _ _ _ _ _ ihl ihr =>
    have hleft : ls <:+: ls ++ j :: u :: b :: (cs ++ c :: rs) := List.infix_append_left
    have hright : rs <:+: ls ++ j :: u :: b :: (cs ++ c :: rs) :=
      ⟨ls ++ j :: u :: b :: (cs ++ [c]), [], by simp⟩
    refine hasBlockIn_of_operands hleft hright hnode ?_ (ihl (hleft.sublist.trans hsub))
      (ihr (hright.sublist.trans hsub))
    rintro rfl
    exact hoperator.2 rfl
  | joins _ ih => exact ih hsub hnode
  | @union ls u rs l r _ _ _ ihl ihr =>
    have hleft : ls <:+: ls ++ u :: rs := List.infix_append_left
    have hright : rs <:+: ls ++ u :: rs := ⟨ls ++ [u], [], by simp⟩
    refine hasBlockIn_of_operands hleft hright hnode ?_ (ihl (hleft.sublist.trans hsub))
      (ihr (hright.sublist.trans hsub))
    rintro rfl
    exact hoperator.1 rfl

/-- Where no token reaches over an end of a span, the slice has the tokens that the span covers. -/
theorem filter_covers_tokenize {slice : String} (hslice : s.slice? query = some slice)
    (hseams : ∀ t ∈ tokenize query, ¬ t.Straddles s.start ∧ ¬ t.Straddles s.stop) :
    (tokenize query).filter s.covers = scan s.start [] slice.toList := by
  obtain ⟨⟨before, after, hquery, hstart⟩, hstop⟩ := Span.blockAt_of_slice? hslice
  rw [← String.length_toList] at hstop
  rw [tokenize, hquery, List.append_assoc] at hseams ⊢
  have hfirst := scan_append_of_not_straddles (Nat.zero_le 0) fun t ht _ => by
    rw [Nat.zero_add, hstart]
    exact (hseams t ht).1
  rw [hfirst, Nat.zero_add, hstart] at hseams ⊢
  have hsecond := scan_append_of_not_straddles (Nat.zero_le s.start) fun t ht _ => by
    rw [← hstop]
    exact (hseams t (List.mem_append_right _ ht)).2
  rw [hsecond, ← hstop, ← List.append_assoc]
  have hbefore : ∀ t ∈ scan 0 [] before, t.position < t.stop ∧ t.stop ≤ s.start := by
    intro t ht
    have hbounds := bounds_of_mem_scan ht
    omega
  have hinside : ∀ t ∈ scan s.start [] slice.toList, t.span.Within s := by
    intro t ht
    obtain ⟨hle, -, hstop_le⟩ := bounds_of_mem_scan ht
    exact ⟨hle, hstop ▸ hstop_le⟩
  have hafter : ∀ t ∈ scan s.stop [] after, t.position < t.stop ∧ s.stop ≤ t.position := by
    intro t ht
    obtain ⟨hle, hlt, -⟩ := bounds_of_mem_scan ht
    exact ⟨hlt, hle⟩
  exact filter_covers hbefore hinside hafter

theorem exists_slice_of_liesIn (h : e.LiesIn query)
    (hoperator : e.operator ≠ .union ∧ e.operator ≠ .join) :
    ∃ slice, e.span.slice? query = some slice := by
  obtain ⟨-, -, hnode⟩ := h
  cases e with
  | relation => exact ⟨_, hnode⟩
  | project | select =>
    obtain ⟨⟨inside, hslice⟩, -⟩ := hnode
    exact ⟨_, hslice⟩
  | union => exact absurd rfl hoperator.1
  | join => exact absurd rfl hoperator.2

/-- A block of tokens is what its span covers, and no token reaches over an end of the span. -/
theorem filter_covers_block (hderives : Derives n us e)
    (hwithin : ∀ t ∈ us, t.span.Within e.span) (hlt : e.span.start < e.span.stop)
    (htokens : before ++ us ++ after = tokenize query) :
    (tokenize query).filter e.span.covers = us ∧
      ∀ t ∈ tokenize query, ¬ t.Straddles e.span.start ∧ ¬ t.Straddles e.span.stop := by
  have hsub : (before ++ us ++ after).Sublist (tokenize query) := htokens ▸ List.Sublist.refl _
  have hlexeme : ∀ t ∈ before ++ us ++ after, t.position < t.stop :=
    fun t ht => (isLexeme_of_sublist hsub ht).position_lt_stop
  have hbefore : ∀ t ∈ before, t.position < t.stop ∧ t.stop ≤ e.span.start := by
    intro t ht
    have hus : (before ++ us).Sublist (tokenize query) :=
      (List.sublist_append_left _ _).trans hsub
    exact ⟨hlexeme t (by simp [ht]), hderives.spansTokens.le_start hus ht⟩
  have hafter : ∀ t ∈ after, t.position < t.stop ∧ e.span.stop ≤ t.position := by
    intro t ht
    have hspans := hderives.spansTokens.mono (List.subset_append_right before us)
    exact ⟨hlexeme t (by simp [ht]), hspans.stop_le hsub ht⟩
  rw [← htokens]
  refine ⟨filter_covers hbefore hwithin hafter, fun t ht => ?_⟩
  simp only [Straddles]
  rcases List.mem_append.mp ht with ht | ht
  · rcases List.mem_append.mp ht with ht | ht
    · have hplace := hbefore t ht
      omega
    · obtain ⟨hstart, hstop⟩ := hwithin t ht
      simp only [Token.span] at hstart hstop
      omega
  · have hplace := hafter t ht
    omega

/-- The slice of a relation, a projection or a selection is a query for it. -/
theorem compile_slice (h : (compile query).value = .ok e) (hnode : node ∈ e.postorder depth)
    (hoperator : node.2.operator ≠ .union ∧ node.2.operator ≠ .join) :
    ∃ slice e', node.2.span.slice? query = some slice ∧ (compile slice).value = .ok e' ∧
      e'.move (.shift node.2.span.start) = node.2 := by
  have hlies := liesIn_of_compile h depth node hnode
  obtain ⟨slice, hslice⟩ := exists_slice_of_liesIn hlies hoperator
  obtain ⟨us, ⟨before, after, htokens⟩, hderives, hwithin⟩ :=
    (compile_eq_ok_iff_derives.mp h).hasBlockIn (List.Sublist.refl _) hnode hoperator
  obtain ⟨hblock, hseams⟩ := filter_covers_block hderives hwithin hlies.1 htokens
  rw [filter_covers_tokenize hslice hseams] at hblock
  rw [← hblock] at hderives
  obtain ⟨e', he', hmove⟩ := derives_scan_iff.mp hderives.expression
  exact ⟨slice, e', hslice, he', hmove⟩

end RelTrace
