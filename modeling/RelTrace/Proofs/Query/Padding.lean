import RelTrace.Proofs.Query.Replacement

/-!
# Padding

Characters that no token keeps are inert between tokens. Put in at some place, they move what stands
behind the place and change nothing else, neither a tree nor an error. Inside an identifier they cut
it in two, which does not show if the identifier stands in a condition.

## Main definitions

* `tokenizeApart`: the tokens of a text that is cut in two.
-/

namespace RelTrace

open Grammar Token

/-- The tokens of two texts, the second one behind the first. -/
def tokenizeApart (u v : String) : List Token := tokenize u ++ scan u.length [] v.toList

variable {u v w : String} {e : Expr} {t : Token} {place length : Nat}

namespace Token

/-- A token moves as a whole unless the insertion is inside it. -/
theorem movesWhole_insertion (hlt : t.position < t.stop) (h : ¬ t.Straddles place) :
    t.MovesWhole (.insertion place length) := by
  simp only [MovesWhole, move, stop, Move.insertion, Straddles] at hlt h ⊢
  by_cases hplace : place ≤ t.position
  · rw [if_pos hplace, if_pos (by omega)]
    omega
  · rw [if_neg hplace, if_neg (by omega)]

theorem move_insertion_of_lt (h : t.position < place) : t.move (.insertion place length) = t := by
  simp only [move, Move.insertion, if_neg (Nat.not_le_of_lt h)]

theorem move_insertion_of_le (h : place ≤ t.position) :
    t.move (.insertion place length) = t.move (.shift length) := by
  simp only [move, Move.insertion, Move.shift, if_pos h]

end Token

/-- No token of two texts goes on from one to the other. -/
theorem not_straddles_of_mem_tokenizeApart (h : t ∈ tokenizeApart u v) :
    t.position < t.stop ∧ ¬ t.Straddles u.length := by
  simp only [Straddles]
  rcases List.mem_append.mp h with h | h
  · obtain ⟨-, hlt, hle⟩ := bounds_of_mem_scan h
    rw [Nat.zero_add, String.length_toList] at hle
    omega
  · obtain ⟨hle, hlt, -⟩ := bounds_of_mem_scan h
    omega

/-- The padding moves the tokens of the second text. -/
theorem tokenize_insert (hw : ∀ c ∈ w.toList, isKept c = false) (hne : w.toList ≠ []) :
    tokenize (u ++ w ++ v) =
      (tokenizeApart u v).map (Token.move (.insertion u.length w.length)) := by
  have hbefore : (tokenize u).map (Token.move (.insertion u.length w.length)) = tokenize u := by
    refine (List.map_congr_left fun t ht => ?_).trans (List.map_id _)
    obtain ⟨-, hlt, hle⟩ := bounds_of_mem_scan ht
    rw [Nat.zero_add, String.length_toList] at hle
    exact move_insertion_of_lt (Nat.lt_of_lt_of_le hlt hle)
  have hafter : (scan u.length [] v.toList).map (Token.move (.insertion u.length w.length)) =
      scan (u.length + w.length) [] v.toList := by
    rw [scan_shift (Nat.zero_le _)]
    exact List.map_congr_left fun t ht => move_insertion_of_le (bounds_of_mem_scan ht).1
  rw [tokenizeApart, List.map_append, hbefore, hafter, tokenize, String.toList_append,
    String.toList_append, List.append_assoc, scan_insert hw hne, Nat.zero_add, String.length_toList,
    String.length_toList, tokenize]

/-- Nothing moves where nothing is put in. -/
theorem moveOutcome_insertion_zero (x : Except ParseError Expr) :
    moveOutcome (.insertion place 0) Expr.move x = x := by
  have hmove : Move.insertion place 0 = ⟨id, id⟩ := by
    simp only [Move.insertion, Nat.add_zero, ite_self]
    rfl
  rw [hmove]
  cases x with
  | error err => cases err <;> rfl
  | ok e => exact congrArg Except.ok (Expr.mapSpans_id e)

/-- Padding a text where it can be cut. -/
theorem value_compile_insert (hw : ∀ c ∈ w.toList, isKept c = false)
    (hcut : parse (tokenizeApart u v) = (compile (u ++ v)).value) :
    (compile (u ++ w ++ v)).value =
      moveOutcome (.insertion u.length w.length) Expr.move (compile (u ++ v)).value := by
  by_cases hne : w = ""
  · subst hne
    rw [String.append_empty]
    exact (moveOutcome_insertion_zero _).symm
  · have hlist : w.toList ≠ [] := by simpa using hne
    have hmoves : ∀ t ∈ tokenizeApart u v, t.MovesWhole (.insertion u.length w.length) := by
      intro t ht
      obtain ⟨hlt, hstraddles⟩ := not_straddles_of_mem_tokenizeApart ht
      exact movesWhole_insertion hlt hstraddles
    rw [value_compile, tokenize_insert hw hlist, parse_move hmoves, hcut]

/-- A text is cut between tokens or inside an identifier that falls apart. -/
theorem tokenize_append_cases (u v : String) :
    tokenize (u ++ v) = tokenizeApart u v ∨
      ∃ before t pieces after, tokenize (u ++ v) = before ++ t :: after ∧
        tokenizeApart u v = before ++ pieces ++ after ∧ t.kind = .identifier ∧
        t.Straddles u.length ∧ t.FallsInto pieces := by
  have hrun : ([] : List Char).length ≤ 0 := Nat.le_refl 0
  have hcases := scan_cut_cases hrun u.toList v.toList
  rwa [Nat.zero_add, String.length_toList, ← String.toList_append] at hcases

/-- Between tokens a text can be cut. -/
theorem tokenizeApart_eq (h : ∀ t ∈ tokenize (u ++ v), t.kind = .identifier →
    ¬ t.Straddles u.length) : tokenizeApart u v = tokenize (u ++ v) := by
  rcases tokenize_append_cases u v with heq | ⟨before, t, _, after, heq, -, hkind, hplace, -⟩
  · exact heq.symm
  · exact absurd hplace (h t (by simp [heq]) hkind)

/-- Inside a condition a query can be cut anywhere. -/
theorem parse_tokenizeApart_of_condition {node : Nat × Expr} (he : (compile (u ++ v)).value = .ok e)
    (hnode : node ∈ e.postorder 0) (haround : node.2.HasConditionAround u.length) :
    parse (tokenizeApart u v) = .ok e := by
  have hderives := compile_eq_ok_iff_derives.mp he
  rw [parse_eq_ok_iff_derives]
  rcases tokenize_append_cases u v with heq | ⟨before, t, pieces, after, heq, hapart, hkind, hplace,
    hpieces⟩
  · rwa [← heq]
  · have hsub : (before ++ [t] ++ after).Sublist (tokenize (u ++ v)) := by simp [heq]
    have hlt : t.position < t.stop := (isLexeme_of_sublist hsub (by simp)).position_lt_stop
    have hbefore : t ∉ before := by
      intro hmem
      have hle := stop_le_of_sublist ((List.sublist_append_left _ _).trans hsub) hmem
        (List.mem_singleton_self t)
      omega
    have hafter : t ∉ after := by
      intro hmem
      have hle := stop_le_of_sublist hsub (t := t) (by simp) hmem
      omega
    have hreplaced := hderives.replace (List.Sublist.refl _) hkind hpieces hplace hnode haround
    rwa [heq, replace_middle hbefore hafter, ← hapart] at hreplaced

/-- Padding between tokens, or inside a condition, only moves what stands behind it: the spans of
the tree if there is one, the position of the error if not. -/
theorem padding_moves_outcome (u v : String) {w : String} (hw : ∀ c ∈ w.toList, isKept c = false) :
    ((∀ t ∈ tokenize (u ++ v), t.kind = .identifier → ¬ t.Straddles u.length) →
        (compile (u ++ w ++ v)).value =
          moveOutcome (.insertion u.length w.length) Expr.move (compile (u ++ v)).value) ∧
      ∀ e : Expr, (compile (u ++ v)).value = .ok e →
        (∃ node ∈ e.postorder 0, node.2.HasConditionAround u.length) →
          (compile (u ++ w ++ v)).value = .ok (e.move (.insertion u.length w.length)) := by
  constructor
  · intro hseam
    apply value_compile_insert hw
    rw [tokenizeApart_eq hseam, value_compile]
  · rintro e he ⟨node, hnode, haround⟩
    have hcut := parse_tokenizeApart_of_condition he hnode haround
    rw [value_compile_insert hw (hcut.trans he.symm), he]
    rfl

theorem padding_moves_outcome_cut :
    (compile "A ∪é §(B C)").value = .error (.unexpectedToken (.token .rightParen) .identifier 9) ∧
      (compile "σ[aé §_b=1](R)").value =
        .ok (.select "a_b=1" (.relation "R" ⟨12, 13⟩) ⟨0, 14⟩) := by
  have hw : ∀ c ∈ "é §".toList, isKept c = false := by
    simp [isKept, isIdentifierChar, Kind.ofSymbol?]
  have herror : (compile ("A ∪" ++ "(B C)")).value =
      .error (.unexpectedToken (.token .rightParen) .identifier 6) := rfl
  have hok : (compile ("σ[a" ++ "_b=1](R)")).value =
      .ok (.select "a_b=1" (.relation "R" ⟨9, 10⟩) ⟨0, 11⟩) := rfl
  have hseam : ∀ t ∈ tokenize ("A ∪" ++ "(B C)"), t.kind = .identifier →
      ¬ t.Straddles "A ∪".length := by decide
  have hnode : ∃ node ∈ (Expr.select "a_b=1" (.relation "R" ⟨9, 10⟩) ⟨0, 11⟩).postorder 0,
      node.2.HasConditionAround "σ[a".length :=
    ⟨_, Expr.mem_postorder_self 0 _, by decide, by decide⟩
  constructor
  · exact ((padding_moves_outcome "A ∪" "(B C)" hw).1 hseam).trans (by rw [herror]; rfl)
  · exact (padding_moves_outcome "σ[a" "_b=1](R)" hw).2 _ hok hnode

end RelTrace
