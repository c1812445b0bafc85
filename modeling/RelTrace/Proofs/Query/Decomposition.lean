import RelTrace.Proofs.Query.Laminar
import RelTrace.Proofs.Query.Seams

/-!
# Decompositions of a text

The tokens of a text take it apart: between them stands only what no token keeps, and an identifier
is never followed by a character that could have gone on with it. No other tokens do. That an
underscore is a symbol as well as an identifier character leaves no choice, because an identifier
neither begins with one nor stops before one.

## Main definitions

* `Token.gaps`: the texts before, between and after tokens.
* `Token.weave`: gaps and tokens put together.
* `Token.Decomposes`: tokens that take a text apart.
* `Token.Splits`: the same along the text, from one token to the next.
-/

namespace RelTrace.Token

/-- The texts before, between and after tokens, from a place on. -/
def gaps (cs : List Char) : Nat → List Token → List (List Char)
  | start, [] => [cs.drop start]
  | start, t :: ts => (cs.take t.position).drop start :: gaps cs t.stop ts

/-- Gaps and the texts of tokens in turn. -/
def weave : List (List Char) → List Token → List Char
  | gap :: gaps, t :: ts => gap ++ (t.text.toList ++ weave gaps ts)
  | gaps, _ => gaps.flatten

/-- The tokens take the text apart. -/
structure Decomposes (query : String) (ts : List Token) : Prop where
  /-- The spans lie one after another. -/
  ordered : ts.Pairwise fun t u => t.position < u.position ∧ t.stop ≤ u.position
  /-- Each token is what its span covers. -/
  slice?_eq : ∀ t ∈ ts, t.span.slice? query = some t.text
  /-- The gaps hold no identifier character and no symbol. -/
  not_isKept : ∀ gap ∈ gaps query.toList 0 ts, ∀ c ∈ gap,
    isIdentifierChar c = false ∧ Kind.ofSymbol? c = none
  /-- Each token is a symbol of its kind, or an identifier with the text of one. -/
  isLexeme : ∀ t ∈ ts, t.IsLexeme
  /-- An identifier goes on as long as it can. -/
  maximal : ∀ t ∈ ts, t.kind = .identifier →
    ∀ c ∈ query.toList[t.stop]?, isIdentifierChar c = false

/-- The tokens take the characters from a place on apart. -/
inductive Splits : Nat → List Char → List Token → Prop
  | nil {start : Nat} {gap : List Char} (hgap : ∀ c ∈ gap, isKept c = false) : Splits start gap []
  | cons {start : Nat} {gap rest : List Char} {t : Token} {ts : List Token}
      (hgap : ∀ c ∈ gap, isKept c = false) (hposition : t.position = start + gap.length)
      (hlexeme : t.IsLexeme)
      (hmaximal : t.kind = .identifier → ∀ c ∈ rest.head?, isIdentifierChar c = false)
      (hrest : Splits t.stop rest ts) : Splits start (gap ++ (t.text.toList ++ rest)) (t :: ts)

variable {start position : Nat} {run cs before : List Char} {c : Char} {t : Token}
  {ts : List Token}

/-! ## There is one decomposition -/

/-- A lexeme is scanned as one token if it ends where it has to. -/
theorem IsLexeme.scan_append (h : t.IsLexeme)
    (hmaximal : t.kind = .identifier → ∀ c ∈ cs.head?, isIdentifierChar c = false) :
    scan t.position [] (t.text.toList ++ cs) = t :: scan t.stop [] cs := by
  obtain ⟨kind, text, position⟩ := t
  unfold IsLexeme at h
  dsimp only at h hmaximal ⊢
  cases hsymbol : kind.symbol? with
  | some symbol =>
    simp only [hsymbol] at h
    subst h
    rw [String.toList_ofList, List.singleton_append,
      scan_symbol (Kind.ofSymbol?_eq_some_iff.mpr hsymbol), stop, String.length_ofList]
    rfl
  | none =>
    obtain rfl := Kind.symbol?_eq_none.mp hsymbol
    simp only [hsymbol] at h
    rw [Token.scan_append (hmaximal rfl), h.scan, stop, String.length_toList]
    rfl

/-- Tokens that take a text apart are its tokens. -/
theorem Splits.eq_scan (h : Splits start cs ts) : ts = scan start [] cs := by
  induction h with
  | @nil start gap hgap =>
    have hscan : scan start [] (gap ++ []) = _ := scan_of_dropped hgap (.inl rfl)
    simpa using hscan.symm
  | @cons start gap rest t ts hgap hposition hlexeme hmaximal _ ih =>
    rw [scan_of_dropped hgap (.inl rfl), ofRun_nil, List.nil_append, ← hposition,
      hlexeme.scan_append hmaximal, ih]

/-! ## Scanning decomposes -/

/-- A character that no token keeps goes to the gap. -/
theorem Splits.skip (hc : isKept c = false) (h : Splits (start + 1) cs ts) :
    Splits start (c :: cs) ts := by
  cases h with
  | nil hgap => exact .nil (List.forall_mem_cons.mpr ⟨hc, hgap⟩)
  | @cons _ gap rest t _ hgap hposition hlexeme hmaximal hrest =>
    have hcons : Splits start (c :: gap ++ (t.text.toList ++ rest)) _ :=
      .cons (List.forall_mem_cons.mpr ⟨hc, hgap⟩)
        (by rw [hposition, List.length_cons]; omega) hlexeme hmaximal hrest
    exact hcons

/-- A token where the gap is empty. -/
theorem Splits.lexeme (hlexeme : t.IsLexeme)
    (hmaximal : t.kind = .identifier → ∀ c ∈ cs.head?, isIdentifierChar c = false)
    (h : Splits t.stop cs ts) : Splits t.position (t.text.toList ++ cs) (t :: ts) :=
  .cons (by simp : ∀ c ∈ [], isKept c = false) rfl hlexeme hmaximal h

/-- A character that does not go on with a run is a symbol or goes to the gap. -/
theorem Splits.ofChar (hc : extendsRun run c = false) (h : Splits (start + 1) cs ts) :
    Splits start (c :: cs) (ofChar start c ++ ts) := by
  have hkept := isKept_of_not_extendsRun hc
  cases hkind : Kind.ofSymbol? c with
  | none =>
    rw [hkind] at hkept
    simpa [Token.ofChar, hkind] using h.skip hkept
  | some kind =>
    obtain ⟨t, ht⟩ : ∃ t : Token, t = ⟨kind, String.ofList [c], start⟩ := ⟨_, rfl⟩
    have hmem : t ∈ Token.ofChar start c := by simp [Token.ofChar, hkind, ht]
    have hmaximal : t.kind ≠ .identifier := by
      have hsymbol := Kind.ofSymbol?_eq_some_iff.mp hkind
      rintro hidentifier
      rw [show kind = .identifier by simpa [ht] using hidentifier] at hsymbol
      cases hsymbol
    have hstop : t.stop = start + 1 := stop_of_mem_ofChar hmem
    have hlexeme := Splits.lexeme (isLexeme_of_mem_ofChar hmem)
      (fun hidentifier => absurd hidentifier hmaximal) (hstop ▸ h)
    simpa [Token.ofChar, hkind, ht] using hlexeme

/-- A run is an identifier if it cannot go on. -/
theorem Splits.ofRun (hrun : IsRun run) (hposition : run.length ≤ position)
    (hmaximal : ∀ c ∈ cs.head?, run ≠ [] → isIdentifierChar c = false)
    (h : Splits position cs ts) :
    Splits (position - run.length) (run.reverse ++ cs) (ofRun position run ++ ts) := by
  cases run with
  | nil => exact h
  | cons c run =>
    obtain ⟨t, ht⟩ : ∃ t : Token, t = ⟨.identifier, String.ofList (c :: run).reverse,
      position - (c :: run).length⟩ := ⟨_, rfl⟩
    have hmem : t ∈ Token.ofRun position (c :: run) := by simp [Token.ofRun, ht]
    have hstop : t.stop = position := by
      rw [ht, stop, String.length_ofList, List.length_reverse]
      exact Nat.sub_add_cancel hposition
    have hlexeme := Splits.lexeme (isLexeme_of_mem_ofRun hrun hmem)
      (fun _ d hd => hmaximal d hd (List.cons_ne_nil c run)) (hstop ▸ h)
    simpa [Token.ofRun, ht] using hlexeme

theorem splits_scan (hrun : IsRun run) (hposition : run.length ≤ position) (cs : List Char) :
    Splits (position - run.length) (run.reverse ++ cs) (scan position run cs) := by
  induction cs generalizing position run with
  | nil =>
    have hnil : Splits position [] [] := .nil (by simp)
    simpa using Splits.ofRun hrun hposition (by simp) hnil
  | cons c cs ih =>
    cases hc : extendsRun run c with
    | true =>
      have hnext : Splits (position + 1 - (c :: run).length) _ _ :=
        ih (hrun.cons hc) (by simpa using hposition)
      rw [scan_cons_of_extendsRun hc]
      simpa using hnext
    | false =>
      have hnext : Splits (position + 1) cs (scan (position + 1) [] cs) :=
        ih IsRun.nil (Nat.zero_le (position + 1))
      rw [scan_cons_of_not_extendsRun hc]
      refine Splits.ofRun hrun hposition (fun d hd hne => ?_) (Splits.ofChar hc hnext)
      obtain rfl := Option.some.inj hd
      simpa [extendsRun, hne] using hc

/-! ## What a decomposition is made of -/

section Flat

variable {gap rest : List Char}

theorem gaps_cons (hbefore : before.length = start) (hposition : t.position = start + gap.length) :
    gaps (before ++ (gap ++ rest)) start (t :: ts) =
      gap :: gaps (before ++ (gap ++ rest)) t.stop ts := by
  subst hbefore
  rw [gaps, hposition]
  simp [List.take_append]

theorem length_append_text (hbefore : before.length = start)
    (hposition : t.position = start + gap.length) :
    (before ++ (gap ++ t.text.toList)).length = t.stop := by
  simp only [List.length_append, String.length_toList, hbefore, stop, hposition]
  omega

/-- No token keeps what stands in the gaps. -/
theorem Splits.isKept_eq_false (h : Splits start cs ts) (hbefore : before.length = start) :
    ∀ gap ∈ gaps (before ++ cs) start ts, ∀ c ∈ gap, isKept c = false := by
  induction h generalizing before with
  | nil hgap =>
    subst hbefore
    simpa [gaps] using hgap
  | @cons start gap rest t ts hgap hposition _ _ _ ih =>
    have hnext := ih (length_append_text hbefore hposition)
    rw [gaps_cons hbefore hposition]
    refine List.forall_mem_cons.mpr ⟨hgap, ?_⟩
    simpa only [List.append_assoc] using hnext

theorem Splits.maximal (h : Splits start cs ts) (hbefore : before.length = start) :
    ∀ t ∈ ts, t.kind = .identifier → ∀ c ∈ (before ++ cs)[t.stop]?, isIdentifierChar c = false := by
  induction h generalizing before with
  | nil => simp
  | @cons start gap rest t ts _ hposition _ hmaximal _ ih =>
    have hlength := length_append_text hbefore hposition
    have hwhole : before ++ (gap ++ (t.text.toList ++ rest)) =
        before ++ (gap ++ t.text.toList) ++ rest := by simp
    rw [hwhole]
    refine List.forall_mem_cons.mpr ⟨fun hkind c hc => hmaximal hkind c ?_, ih hlength⟩
    rwa [List.getElem?_append_right (Nat.le_of_eq hlength), hlength, Nat.sub_self,
      ← List.head?_eq_getElem?] at hc

/-- Gaps and tokens in turn are the text. -/
theorem Splits.weave_eq (h : Splits start cs ts) (hbefore : before.length = start) :
    weave (gaps (before ++ cs) start ts) ts = cs := by
  induction h generalizing before with
  | nil =>
    subst hbefore
    simp [gaps, weave]
  | @cons start gap rest t ts _ hposition _ _ _ ih =>
    have hnext := ih (length_append_text hbefore hposition)
    rw [gaps_cons hbefore hposition, weave]
    simp only [List.append_assoc] at hnext
    rw [hnext]

/-- Tokens that stand in a text split it if the gaps are empty of what tokens keep. -/
theorem Placed.splits (h : Placed start cs ts) (hstart : start ≤ cs.length)
    (hgaps : ∀ gap ∈ gaps cs start ts, ∀ c ∈ gap, isKept c = false)
    (hlexeme : ∀ t ∈ ts, t.IsLexeme)
    (hmaximal : ∀ t ∈ ts, t.kind = .identifier → ∀ c ∈ cs[t.stop]?, isIdentifierChar c = false) :
    Splits start (cs.drop start) ts := by
  induction ts generalizing start with
  | nil => exact .nil (hgaps _ (List.mem_singleton_self _))
  | cons t ts ih =>
    obtain ⟨before, after, hcs, hbefore⟩ := h.standsIn t List.mem_cons_self
    have hle := h.start_le t List.mem_cons_self
    have hstop : (before ++ t.text.toList).length = t.stop := by
      rw [List.length_append, hbefore, String.length_toList, stop]
    have hafter : cs.drop t.stop = after := by rw [hcs, ← hstop, List.drop_left]
    have hgap : (cs.take t.position).drop start = before.drop start := by
      rw [hcs, List.append_assoc, ← hbefore, List.take_left]
    have hdrop : cs.drop start = before.drop start ++ (t.text.toList ++ after) := by
      rw [hcs, List.append_assoc, List.drop_append_of_le_length (by omega)]
    have hordered := List.pairwise_cons.mp h.ordered
    have hplaced : Placed t.stop cs ts :=
      ⟨fun u hu => h.standsIn u (List.mem_cons_of_mem t hu), hordered.1, hordered.2⟩
    have hrest := ih hplaced (h.standsIn t List.mem_cons_self).stop_le_length
      (fun gap hgap => hgaps gap (List.mem_cons_of_mem _ hgap))
      (fun u hu => hlexeme u (List.mem_cons_of_mem t hu))
      (fun u hu => hmaximal u (List.mem_cons_of_mem t hu))
    rw [hafter] at hrest
    rw [hdrop]
    refine .cons (hgap ▸ hgaps _ List.mem_cons_self) ?_ (hlexeme t List.mem_cons_self)
      (fun hkind => ?_) hrest
    · rw [List.length_drop, hbefore]
      omega
    · rw [← hafter, List.head?_drop]
      exact hmaximal t List.mem_cons_self hkind

end Flat

theorem decomposes_tokenize (query : String) : Decomposes query (tokenize query) := by
  have hplaced := placed_tokenize query
  have hsplits : Splits 0 query.toList (tokenize query) :=
    splits_scan IsRun.nil Nat.le.refl query.toList
  have hlexeme : ∀ t ∈ tokenize query, t.IsLexeme := fun t ht => isLexeme_of_mem_scan IsRun.nil ht
  have hnil : ([] : List Char).length = 0 := rfl
  refine ⟨?_, fun t ht => Span.slice?_of_blockAt (hplaced.standsIn t ht) rfl, ?_, hlexeme,
    hsplits.maximal hnil⟩
  · refine hplaced.ordered.imp_of_mem fun ht _ hle => ⟨?_, hle⟩
    exact Nat.lt_of_lt_of_le (hlexeme _ ht).position_lt_stop hle
  · intro gap hgap c hc
    exact isKept_eq_false_iff.mp (hsplits.isKept_eq_false hnil gap hgap c hc)

theorem Decomposes.splits {query : String} (h : Decomposes query ts) :
    Splits 0 query.toList ts := by
  have hplaced : Placed 0 query.toList ts :=
    ⟨fun t ht => (Span.blockAt_of_slice? (h.slice?_eq t ht)).1, fun _ _ => Nat.zero_le _,
      h.ordered.imp And.right⟩
  exact hplaced.splits (Nat.zero_le _)
    (fun gap hgap c hc => isKept_eq_false_iff.mpr (h.not_isKept gap hgap c hc)) h.isLexeme h.maximal

/-- Tokens take a query apart exactly if they are its tokens. Together with what stands between them
they are the query. -/
theorem tokens_are_the_decomposition (query : String) (ts : List Token) :
    (Decomposes query ts ↔ ts = tokenize query) ∧
      weave (gaps query.toList 0 (tokenize query)) (tokenize query) = query.toList := by
  have hnil : ([] : List Char).length = 0 := rfl
  have htokens := decomposes_tokenize query
  refine ⟨⟨fun h => h.splits.eq_scan, ?_⟩, htokens.splits.weave_eq hnil⟩
  rintro rfl
  exact htokens

end RelTrace.Token
