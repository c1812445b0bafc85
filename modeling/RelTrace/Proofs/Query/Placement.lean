import RelTrace.Proofs.Query.Lexical
import RelTrace.Proofs.Query.Postorder

/-!
# Where tokens stand

Tokens are pieces of their query. Each stands where its position says, counted in characters, and
begins where the one before it has ended or later.

## Main definitions

* `Token.StandsIn`: a token with its place in a text.
* `Token.Placed`: tokens with their places, in the order of the text.
-/

namespace RelTrace

namespace BlockAt

variable {α : Type} {start i j : Nat} {block xs ys whole : List α}

theorem add_length_le (h : BlockAt start block whole) : start + block.length ≤ whole.length := by
  obtain ⟨before, after, rfl, rfl⟩ := h
  simp

/-- Two blocks, one after the other, are the ends of a larger one. -/
theorem join (hx : BlockAt i xs whole) (hy : BlockAt j ys whole) (hle : i + xs.length ≤ j) :
    ∃ middle, BlockAt i (xs ++ middle ++ ys) whole ∧ j = i + (xs ++ middle).length := by
  obtain ⟨before, after, rfl, rfl⟩ := hx
  obtain ⟨before', after', hwhole, rfl⟩ := hy
  obtain ⟨middle, rfl⟩ : ∃ middle, before' = before ++ xs ++ middle := by
    refine ⟨before'.drop (before ++ xs).length, ?_⟩
    have htake := congrArg (List.take (before ++ xs).length) hwhole
    rw [List.take_left, List.append_assoc, List.take_append_of_le_length (by simpa using hle)]
      at htake
    conv => lhs; rw [← List.take_append_drop (before ++ xs).length before', ← htake]
  exact ⟨middle, ⟨before, after', by simpa using hwhole, rfl⟩, by simp⟩

end BlockAt

/-- A span that fits cuts the text in three. -/
theorem Span.exists_split? {s : Span} {cs : List Char} (h : s.fits cs.length) :
    ∃ before inside after, s.split? cs = some (before, inside, after) ∧
      cs = before ++ inside ++ after ∧ before.length = s.start ∧
      s.stop = s.start + inside.length := by
  refine ⟨cs.take s.start, (cs.take s.stop).drop s.start, cs.drop s.stop, if_pos h, ?_⟩
  simp only [fits, Bool.and_eq_true, decide_eq_true_eq] at h
  have hstart : (cs.take s.stop).take s.start = cs.take s.start := by
    rw [List.take_take, Nat.min_eq_left h.1]
  refine ⟨?_, List.length_take_of_le (Nat.le_trans h.1 h.2), ?_⟩
  · rw [← hstart, List.take_append_drop, List.take_append_drop]
  · rw [List.length_drop, List.length_take_of_le h.2]
    omega

/-- A span that covers a block of the text cuts the block out. -/
theorem Span.split?_of_blockAt {s : Span} {inside cs : List Char} (h : BlockAt s.start inside cs)
    (hstop : s.stop = s.start + inside.length) :
    s.split? cs = some (cs.take s.start, inside, cs.drop s.stop) := by
  have hle := h.add_length_le
  obtain ⟨before, after, rfl, hstart⟩ := h
  have hfits : s.fits (before ++ inside ++ after).length := by
    simp only [fits, Bool.and_eq_true, decide_eq_true_eq]
    omega
  rw [split?, if_pos hfits, hstop, ← hstart]
  simp [List.take_append, List.take_of_length_le, List.drop_append, List.drop_of_length_le]

theorem Span.slice?_of_blockAt {s : Span} {query inside : String}
    (h : BlockAt s.start inside.toList query.toList) (hstop : s.stop = s.start + inside.length) :
    s.slice? query = some inside := by
  rw [slice?, split?_of_blockAt h (by rwa [String.length_toList])]
  simp

/-- What a span cuts out stands in the text, from its start to its stop. -/
theorem Span.blockAt_of_slice? {s : Span} {query inside : String}
    (h : s.slice? query = some inside) :
    BlockAt s.start inside.toList query.toList ∧ s.stop = s.start + inside.length := by
  rw [slice?] at h
  by_cases hfits : s.fits query.toList.length
  · obtain ⟨before, block, after, hsplit, hquery, hstart, hstop⟩ := exists_split? hfits
    rw [hsplit] at h
    obtain rfl := Option.some.inj h
    rw [String.toList_ofList, String.length_ofList]
    exact ⟨⟨before, after, hquery, hstart⟩, hstop⟩
  · rw [split?, if_neg hfits] at h
    cases h

namespace Token

/-- The token stands in the text, at its position. -/
def StandsIn (cs : List Char) (t : Token) : Prop := BlockAt t.position t.text.toList cs

/-- The tokens stand in the text, from a place on and one after another. -/
structure Placed (start : Nat) (cs : List Char) (ts : List Token) : Prop where
  standsIn : ∀ t ∈ ts, t.StandsIn cs
  start_le : ∀ t ∈ ts, start ≤ t.position
  ordered : ts.Pairwise fun t u => t.stop ≤ u.position

variable {start middle position : Nat} {before run cs whole : List Char} {c : Char} {t : Token}
  {ts us : List Token}

theorem StandsIn.stop_le_length (h : t.StandsIn whole) : t.stop ≤ whole.length := by
  have hle := BlockAt.add_length_le h
  rwa [String.length_toList] at hle

theorem StandsIn.stop_le {query : String} (h : t.StandsIn query.toList) :
    t.stop ≤ query.length :=
  String.length_toList ▸ h.stop_le_length

theorem Placed.append (hts : Placed start whole ts) (hstop : ∀ t ∈ ts, t.stop ≤ middle)
    (hus : Placed middle whole us) (hle : start ≤ middle) : Placed start whole (ts ++ us) where
  standsIn := List.forall_mem_append.mpr ⟨hts.standsIn, hus.standsIn⟩
  start_le := by
    refine List.forall_mem_append.mpr ⟨hts.start_le, fun u hu => ?_⟩
    exact Nat.le_trans hle (hus.start_le u hu)
  ordered := by
    refine List.pairwise_append.mpr ⟨hts.ordered, hus.ordered, fun t ht u hu => ?_⟩
    exact Nat.le_trans (hstop t ht) (hus.start_le u hu)

theorem placed_singleton (h : t.StandsIn whole) : Placed t.position whole [t] where
  standsIn := by simpa using h
  start_le := by simp
  ordered := List.pairwise_singleton _ _

/-- The identifier of a run stands where the run does. -/
theorem placed_ofRun (before run cs : List Char) :
    Placed before.length (before ++ run.reverse ++ cs)
      (ofRun (before.length + run.length) run) := by
  cases run with
  | nil => exact ⟨by simp, by simp, by simp⟩
  | cons c run =>
    have hplace : before.length + (c :: run).length - (c :: run).length = before.length := by omega
    have hstands : StandsIn (before ++ (c :: run).reverse ++ cs)
        ⟨.identifier, String.ofList (c :: run).reverse, before.length⟩ :=
      ⟨before, cs, by simp, rfl⟩
    rw [ofRun, hplace]
    exact placed_singleton hstands

theorem stop_le_of_mem_ofRun (hle : run.length ≤ position) (h : t ∈ ofRun position run) :
    t.stop ≤ position := by
  cases run with
  | nil => simp at h
  | cons c run =>
    obtain rfl := List.mem_singleton.mp h
    simp only [stop, String.length_ofList, List.length_reverse]
    omega

/-- A symbol stands where its character does. -/
theorem placed_ofChar (before : List Char) (c : Char) (cs : List Char) :
    Placed before.length (before ++ c :: cs) (ofChar before.length c) := by
  unfold ofChar
  cases Kind.ofSymbol? c with
  | none => exact ⟨by simp, by simp, by simp⟩
  | some kind =>
    have hstands : StandsIn (before ++ c :: cs) ⟨kind, String.ofList [c], before.length⟩ :=
      ⟨before, cs, by simp, rfl⟩
    exact placed_singleton hstands

theorem stop_of_mem_ofChar (h : t ∈ ofChar position c) : t.stop = position + 1 := by
  simp only [ofChar, Option.mem_toList, Option.map_eq_some_iff] at h
  obtain ⟨kind, -, rfl⟩ := h
  simp [stop]

/-- The tokens from a run on stand in the text from the beginning of the run on. -/
theorem placed_scan (before run cs : List Char) :
    Placed before.length (before ++ run.reverse ++ cs)
      (scan (before.length + run.length) run cs) := by
  induction cs generalizing before run with
  | nil => exact placed_ofRun before run []
  | cons c cs ih =>
    cases hc : extendsRun run c with
    | true =>
      rw [scan_cons_of_extendsRun hc]
      simpa [Nat.add_assoc] using ih before (c :: run)
    | false =>
      have hlength : (before ++ run.reverse).length = before.length + run.length := by simp
      have hsymbol := placed_ofChar (before ++ run.reverse) c cs
      have hrest := ih (before ++ run.reverse ++ [c]) []
      rw [hlength] at hsymbol
      rw [List.length_append, hlength] at hrest
      rw [scan_cons_of_not_extendsRun hc]
      refine (placed_ofRun before run (c :: cs)).append (fun t ht => ?_)
        (hsymbol.append (fun t ht => ?_) (by simpa using hrest) (by omega)) (by omega)
      · exact stop_le_of_mem_ofRun (by omega) ht
      · exact Nat.le_of_eq (stop_of_mem_ofChar ht)

theorem placed_tokenize (query : String) : Placed 0 query.toList (tokenize query) := by
  simpa [tokenize] using placed_scan [] [] query.toList

end Token

end RelTrace
