import RelTrace.Proofs.Query.Laminar
import RelTrace.Proofs.Query.Seams

/-!
# Identifiers that fall apart inside conditions

A condition keeps only the joined text of its tokens. When an identifier inside a condition falls
apart into pieces, the tokens have the same tree as before. Whether an identifier stands inside a
condition can be told from the spans: no other identifiers stand between the symbol of a selection
and its operand, or between the operands of a join.

## Main definitions

* `Token.replace`: tokens with pieces in the place of one of them.
* `Expr.HasConditionAround`: the places around the condition of a node.
-/

namespace RelTrace

open Grammar Token

/-- The tokens with pieces in the place of one of them. -/
def Token.replace (t : Token) (pieces ts : List Token) : List Token :=
  ts.flatMap fun u => if u = t then pieces else [u]

/-- The place stands between the symbol and the operand of a selection or between the operands of a
join, as both delimiters of the condition and all of its text do. -/
def Expr.HasConditionAround (place : Nat) : Expr → Prop
  | select _ operand s => s.start < place ∧ place < operand.span.start
  | join _ l r _ => l.span.stop < place ∧ place < r.span.start
  | _ => False

variable {query : String} {n : Nonterminal} {e l r : Expr} {t u o q : Token} {place depth : Nat}
  {ts ls rs pieces before middle after : List Token} {node : Nat × Expr}

namespace Token

@[simp] theorem replace_nil : replace t pieces [] = [] := rfl

theorem replace_append (t : Token) (pieces ts us : List Token) :
    replace t pieces (ts ++ us) = replace t pieces ts ++ replace t pieces us :=
  List.flatMap_append

theorem replace_cons_of_ne (h : u ≠ t) : replace t pieces (u :: ts) = u :: replace t pieces ts := by
  simp [replace, h]

/-- An identifier gives way; the symbols stay. -/
theorem replace_cons_symbol (hkind : t.kind = .identifier) (hu : u.kind ≠ .identifier) :
    replace t pieces (u :: ts) = u :: replace t pieces ts := by
  apply replace_cons_of_ne
  rintro rfl
  exact hu hkind

theorem replace_of_not_mem (h : t ∉ ts) : replace t pieces ts = ts := by
  induction ts with
  | nil => rfl
  | cons u ts ih =>
    obtain ⟨hne, hmem⟩ := List.ne_and_not_mem_of_not_mem_cons h
    rw [replace_cons_of_ne hne.symm, ih hmem]

theorem replace_middle (hbefore : t ∉ before) (hafter : t ∉ after) :
    replace t pieces (before ++ t :: after) = before ++ pieces ++ after := by
  have hrest : replace t pieces after = after := replace_of_not_mem hafter
  rw [replace_append, replace_of_not_mem hbefore, List.append_assoc]
  simpa [replace] using hrest

/-- The pieces have the characters of the token. -/
theorem joinTexts_replace (h : t.FallsInto pieces) (ts : List Token) :
    joinTexts (replace t pieces ts) = joinTexts ts := by
  induction ts with
  | nil => rfl
  | cons u ts ih =>
    have hhead : joinTexts (if u = t then pieces else [u]) = u.text := by
      by_cases hu : u = t
      · rw [if_pos hu, hu, h.joinTexts]
      · simp [if_neg hu]
    rw [joinTexts_cons, ← hhead, ← ih, ← joinTexts_append]
    rfl

/-- The pieces do not end a condition that the token does not end. -/
theorem kind_ne_of_mem_replace {kind : Kind} (h : t.FallsInto pieces)
    (hkind : kind = .rightBracket ∨ kind = .rightBrace) (hts : ∀ u ∈ ts, u.kind ≠ kind) :
    ∀ u ∈ replace t pieces ts, u.kind ≠ kind := by
  intro u hu
  obtain ⟨v, hv, hmem⟩ := List.mem_flatMap.mp hu
  split at hmem
  · obtain ⟨hbracket, hbrace⟩ := h.kind_ne u hmem
    rcases hkind with rfl | rfl <;> assumption
  · obtain rfl := List.mem_singleton.mp hmem
    exact hts u hv

/-- A token around a place within an expression stands neither behind nor before the expression. -/
theorem Straddles.not_mem_later (h : t.Straddles place) (hl : l.SpansTokens ls)
    (hsub : (ls ++ rs).Sublist (tokenize query)) (hplace : place < l.span.stop) : t ∉ rs := by
  intro hmem
  have hle := hl.stop_le hsub hmem
  have hlt := h.1
  omega

theorem Straddles.not_mem_earlier (h : t.Straddles place) (hr : r.SpansTokens rs)
    (hsub : (ls ++ rs).Sublist (tokenize query)) (hplace : r.span.start < place) : t ∉ ls := by
  intro hmem
  have hle := hr.le_start hsub hmem
  have hlt := h.2
  omega

end Token

/-- A place around the condition of a node lies inside the span of the whole tree. -/
theorem Expr.HasConditionAround.lt_and_lt (h : node.2.HasConditionAround place)
    (he : ∀ node ∈ e.postorder depth, node.2.LiesIn query) (hnode : node ∈ e.postorder depth) :
    e.span.start < place ∧ place < e.span.stop := by
  have hwithin := within_of_mem_postorder he hnode
  have hbelow : ∀ x ∈ node.2.postorder node.1, x.2.LiesIn query :=
    fun x hx => he x (postorder_subset_of_mem hnode hx)
  have hinside : node.2.span.start < place ∧ place < node.2.span.stop := by
    obtain ⟨d, tree⟩ := node
    cases tree with
    | select _ operand s =>
      obtain ⟨hoperand, hroot⟩ := List.forall_mem_append.mp hbelow
      obtain ⟨-, -, -, -, hstop⟩ := List.forall_mem_singleton.mp hroot
      have hlt := (hoperand _ (operand.mem_postorder_self _)).1
      exact ⟨h.1, Nat.lt_trans h.2 (Nat.lt_trans hlt hstop)⟩
    | join _ l r s =>
      obtain ⟨hoperands, hroot⟩ := List.forall_mem_append.mp hbelow
      obtain ⟨hleft, hright⟩ := List.forall_mem_append.mp hoperands
      obtain ⟨-, -, hstart, hstop, -⟩ := List.forall_mem_singleton.mp hroot
      have hl := (hleft _ (l.mem_postorder_self _)).1
      have hr := (hright _ (r.mem_postorder_self _)).1
      exact ⟨hstart ▸ Nat.lt_trans hl h.1, hstop ▸ Nat.lt_trans h.2 hr⟩
    | relation | project | union => exact h.elim
  exact ⟨Nat.lt_of_le_of_lt hwithin.1 hinside.1, Nat.lt_of_lt_of_le hinside.2 hwithin.2⟩

/-- Identifiers of operands and tokens between the operands stand within the whole. -/
theorem within_of_operands {n' : Nonterminal} (hl : Derives n ls l) (hr : Derives n' rs r)
    (hsub : (ls ++ o :: middle ++ rs).Sublist (tokenize query))
    (hleft : ls.Sublist (tokenize query) → ∀ t ∈ ls, t.kind = .identifier → t.span.Within l.span)
    (hright : rs.Sublist (tokenize query) → ∀ t ∈ rs, t.kind = .identifier →
      t.span.Within r.span) :
    ∀ t ∈ ls ++ o :: middle ++ rs, t.kind = .identifier →
      t.span.Within ⟨l.span.start, r.span.stop⟩ := by
  have hls : (ls ++ o :: middle).Sublist (tokenize query) :=
    (List.sublist_append_left _ _).trans hsub
  have hrs := (List.sublist_append_right (ls ++ o :: middle) rs).trans hsub
  have hls_sub := (List.sublist_append_left ls (o :: middle)).trans hls
  have hl_lies := hl.liesIn hls_sub 0 _ (l.mem_postorder_self 0)
  have hr_lies := hr.liesIn hrs 0 _ (r.mem_postorder_self 0)
  obtain ⟨-, -, hapart⟩ := liesIn_apart hsub hl.spansTokens hr.spansTokens hl_lies hr_lies
  have hl_lt := hl_lies.1
  have hr_lt := hr_lies.1
  obtain ⟨hl_within, -, hr_within, -⟩ :=
    Span.within_of_ends (s := ⟨l.span.start, r.span.stop⟩) hl_lt hr_lt rfl rfl hapart
  intro t ht hkind
  rcases List.mem_append.mp ht with ht | ht
  · rcases List.mem_append.mp ht with ht | ht
    · exact (hleft hls_sub t ht hkind).trans hl_within
    · have hafter := hl.spansTokens.stop_le hls ht
      have hbefore := hr.spansTokens.le_start hsub (t := t) (by simp [List.mem_cons.mp ht])
      exact ⟨Nat.le_trans (Nat.le_of_lt hl_lt) hafter, Nat.le_trans hbefore (Nat.le_of_lt hr_lt)⟩
  · exact (hright hrs t ht hkind).trans hr_within

/-- The identifiers of an expression stand within its span. -/
theorem Grammar.Derives.within_of_identifier (h : Derives n ts e)
    (hsub : ts.Sublist (tokenize query)) :
    ∀ t ∈ ts, t.kind = .identifier → t.span.Within e.span := by
  induction h with
  | relation =>
    intro t ht _
    obtain rfl := List.mem_singleton.mp ht
    exact .refl _
  | @group p ts q e hp _ hq ih =>
    have hshape : ([p] ++ ts ++ [q]).Sublist (tokenize query) := by simpa using hsub
    intro t ht hkind
    rcases List.mem_append.mp (show t ∈ p :: ts ++ [q] from ht) with ht | ht
    · rcases List.mem_cons.mp ht with rfl | ht
      · cases hp.symm.trans hkind
      · exact ih (sublist_of_enclosed hshape) t ht hkind
    · obtain rfl := List.mem_singleton.mp ht
      cases hq.symm.trans hkind
  | @projection o b inside c p ts q | @selection o b inside c p ts q =>
    have hshape : (o :: (b :: inside ++ c :: p :: ts ++ [q])).Sublist (tokenize query) := by
      simpa using hsub
    intro t ht _
    exact within_of_sublist hshape t (by simpa using ht)
  | single _ ih => exact ih hsub
  | @join ls j u b cs c rs l r hl _ _ _ _ _ hr ihl ihr =>
    have hshape : (ls ++ j :: (u :: b :: cs ++ [c]) ++ rs).Sublist (tokenize query) := by
      simpa using hsub
    intro t ht
    exact within_of_operands hl hr hshape ihl ihr t (by simpa using ht)
  | joins _ ih => exact ih hsub
  | @union ls u rs l r hl _ hr ihl ihr =>
    have hshape : (ls ++ u :: [] ++ rs).Sublist (tokenize query) := by simpa using hsub
    intro t ht
    exact within_of_operands hl hr hshape ihl ihr t (by simpa using ht)

/-- An identifier around a place outside the span of an expression is none of its tokens. -/
theorem Token.Straddles.not_mem_of_outside (hplace : t.Straddles place) (h : Derives n ts e)
    (hsub : ts.Sublist (tokenize query)) (hkind : t.kind = .identifier)
    (houtside : place < e.span.start ∨ e.span.stop < place) : t ∉ ts := by
  intro hmem
  have hwithin := h.within_of_identifier hsub t hmem hkind
  obtain ⟨hstart, hstop⟩ := hplace
  simp only [Span.Within, Token.span] at hwithin
  omega

/-- The condition lies in one operand or between the two, so only that operand changes. -/
theorem replace_operands {n' : Nonterminal} (hl : Derives n ls l) (hr : Derives n' rs r)
    (hsub : (ls ++ middle ++ rs).Sublist (tokenize query)) (hplace : t.Straddles place)
    (haround : node.2.HasConditionAround place)
    (hnode : node ∈ l.postorder depth ++ r.postorder depth)
    (hleft : node ∈ l.postorder depth → Derives n (Token.replace t pieces ls) l)
    (hright : node ∈ r.postorder depth → Derives n' (Token.replace t pieces rs) r) :
    Derives n (Token.replace t pieces ls) l ∧ Derives n' (Token.replace t pieces rs) r := by
  rcases List.mem_append.mp hnode with hnode | hnode
  · have hls : (ls ++ middle).Sublist (tokenize query) :=
      (List.sublist_append_left _ _).trans hsub
    have hbelow := haround.lt_and_lt
      (hl.liesIn ((List.sublist_append_left _ _).trans hls) depth) hnode
    have hspans := hl.spansTokens.mono (List.subset_append_left ls middle)
    have hmem : t ∉ rs := hplace.not_mem_later hspans hsub hbelow.2
    exact ⟨hleft hnode, by rwa [replace_of_not_mem hmem]⟩
  · have hbelow := haround.lt_and_lt
      (hr.liesIn ((List.sublist_append_right _ _).trans hsub) depth) hnode
    have hmem : t ∉ ls ++ middle := hplace.not_mem_earlier hr.spansTokens hsub hbelow.1
    have hmem_left : t ∉ ls := fun h => hmem (List.mem_append_left middle h)
    exact ⟨by rwa [replace_of_not_mem hmem_left], hright hnode⟩

/-- When an identifier falls apart inside a condition, the tokens still derive the tree. -/
theorem Grammar.Derives.replace (h : Derives n ts e) (hsub : ts.Sublist (tokenize query))
    (hkind : t.kind = .identifier) (hpieces : t.FallsInto pieces) (hplace : t.Straddles place)
    (hnode : node ∈ e.postorder depth) (haround : node.2.HasConditionAround place) :
    Derives n (Token.replace t pieces ts) e := by
  induction h generalizing depth with
  | relation =>
    obtain rfl := List.mem_singleton.mp hnode
    exact haround.elim
  | @group p ts q e hp _ hq ih =>
    have hshape : ([p] ++ ts ++ [q]).Sublist (tokenize query) := by simpa using hsub
    have hinside := ih (sublist_of_enclosed hshape) hnode
    simpa [replace_append, replace_cons_symbol hkind, hp, hq] using
      Derives.group hp hinside hq
  | @projection o b ns c p ts q names e ho hb hns hc hp hts hq ih =>
    have hshape : ((o :: b :: ns ++ [c, p]) ++ ts ++ [q]).Sublist (tokenize query) := by
      simpa using hsub
    have hts_sub := sublist_of_enclosed hshape
    rcases List.mem_append.mp hnode with hnode | hnode
    · have hoperand := haround.lt_and_lt (hts.liesIn hts_sub (depth + 1)) hnode
      have hhead : t ∉ o :: b :: ns ++ [c, p] := hplace.not_mem_earlier hts.spansTokens
        ((List.sublist_append_left _ _).trans hshape) hoperand.1
      have hnames : t ∉ ns := fun hmem => hhead (by simp [hmem])
      simpa [replace_append, replace_cons_symbol hkind, replace_of_not_mem hnames, ho, hb, hc, hp,
        hq] using Derives.projection ho hb hns hc hp (ih hts_sub hnode) hq
    · obtain rfl := List.mem_singleton.mp hnode
      exact haround.elim
  | @selection o b cs c p ts q e ho hb hcs hc hp hts hq ih =>
    have hshape : ((o :: b :: cs ++ [c, p]) ++ ts ++ [q]).Sublist (tokenize query) := by
      simpa using hsub
    have hts_sub := sublist_of_enclosed hshape
    have hinside : Derives .expression (Token.replace t pieces ts) e := by
      rcases List.mem_append.mp hnode with hnode | hnode
      · exact ih hts_sub hnode
      · obtain rfl := List.mem_singleton.mp hnode
        -- The place stands before the operand.
        have hoperand := hplace.not_mem_of_outside hts hts_sub hkind (.inl haround.2)
        rwa [replace_of_not_mem hoperand]
    have hcs' := kind_ne_of_mem_replace hpieces (.inl rfl) hcs
    simpa [replace_append, replace_cons_symbol hkind, joinTexts_replace hpieces, ho, hb, hc, hp, hq]
      using Derives.selection ho hb hcs' hc hp hinside hq
  | single _ ih => exact .single (ih hsub hnode)
  | @join ls j u b cs c rs l r hl hj hu hb hcs hc hr ihl ihr =>
    have hshape : (ls ++ j :: (u :: b :: cs ++ [c]) ++ rs).Sublist (tokenize query) := by
      simpa using hsub
    have hls_sub := (List.sublist_append_left ls _).trans hsub
    have hrs_sub := (List.sublist_append_right _ rs).trans hshape
    have hsides : Derives .joins (Token.replace t pieces ls) l ∧
        Derives .primary (Token.replace t pieces rs) r := by
      rcases List.mem_append.mp hnode with hnode | hnode
      · exact replace_operands hl hr hshape hplace haround hnode (ihl hls_sub) (ihr hrs_sub)
      · obtain rfl := List.mem_singleton.mp hnode
        -- The operands stand on both sides of the place.
        have hleft := hplace.not_mem_of_outside hl hls_sub hkind (.inr haround.1)
        have hright := hplace.not_mem_of_outside hr hrs_sub hkind (.inl haround.2)
        rw [replace_of_not_mem hleft, replace_of_not_mem hright]
        exact ⟨hl, hr⟩
    have hcs' := kind_ne_of_mem_replace hpieces (.inr rfl) hcs
    simpa [replace_append, replace_cons_symbol hkind, joinTexts_replace hpieces, hj, hu, hb, hc]
      using Derives.join hsides.1 hj hu hb hcs' hc hsides.2
  | joins _ ih => exact .joins (ih hsub hnode)
  | @union ls u rs l r hl hu hr ihl ihr =>
    have hshape : (ls ++ [u] ++ rs).Sublist (tokenize query) := by simpa using hsub
    rcases List.mem_append.mp hnode with hnode | hnode
    · obtain ⟨hleft, hright⟩ := replace_operands hl hr hshape hplace haround hnode
        (ihl ((List.sublist_append_left ls _).trans hsub))
        (ihr ((List.sublist_append_right _ rs).trans hshape))
      simpa [replace_append, replace_cons_symbol hkind, hu] using Derives.union hleft hu hright
    · obtain rfl := List.mem_singleton.mp hnode
      exact haround.elim

end RelTrace
