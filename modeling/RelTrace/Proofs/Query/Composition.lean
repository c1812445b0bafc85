import RelTrace.Proofs.Query.Productions
import RelTrace.Proofs.Query.WellFormed

/-!
# Queries made of queries

A query in parentheses is the query again, and an operator around queries in parentheses has their
trees as its operands, each moved to where its text stands. A condition is what tokens keep of the
text between its delimiters, whatever that text is.
-/

namespace RelTrace

open Grammar Token

variable {query other : String} {e o : Expr} {n : Nonterminal} {cs : List Char}

/-- The tokens of a text derive the trees of the text as a query, moved to where it stands. -/
theorem derives_scan_iff {position : Nat} :
    Derives .expression (scan position [] query.toList) e ↔
      ∃ e', (compile query).value = .ok e' ∧ e'.move (.shift position) = e := by
  have hscan : scan (0 + position) [] query.toList =
      (tokenize query).map (move (.shift position)) := scan_shift (Nat.zero_le 0)
  rw [Nat.zero_add] at hscan
  rw [hscan, ← parse_eq_ok_iff_derives, parse_move fun t _ => movesWhole_shift position t,
    value_compile]
  cases parse (tokenize query) with
  | error err =>
    constructor
    · intro h
      cases h
    · rintro ⟨_, h, -⟩
      cases h
  | ok tree =>
    constructor
    · intro h
      exact ⟨tree, rfl, Except.ok.inj h⟩
    · rintro ⟨e', h, rfl⟩
      cases h
      rfl

theorem derives_scan_of_compile (h : (compile query).value = .ok e) (position : Nat) :
    Derives .expression (scan position [] query.toList) (e.move (.shift position)) :=
  derives_scan_iff.mpr ⟨e, h, rfl⟩

theorem compile_of_derives_scan (h : Derives n (scan 0 [] cs) e) (htext : query.toList = cs) :
    (compile query).value = .ok e := by
  rw [compile_eq_ok_iff_derives, tokenize, htext]
  exact h.expression

/-- A query in parentheses is a primary expression. -/
theorem derives_group_of_compile (h : (compile query).value = .ok e) (position : Nat) :
    Derives .primary (scan position [] ('(' :: (query.toList ++ [')'])))
      (e.move (.shift (position + 1))) :=
  (derives_scan_of_compile h (position + 1)).group_scan

theorem compile_group (h : (compile query).value = .ok e) :
    (compile ("(" ++ query ++ ")")).value = .ok (e.move (.shift 1)) :=
  compile_of_derives_scan (derives_group_of_compile h 0) (by simp)

theorem compile_union (h : (compile query).value = .ok e) (h' : (compile other).value = .ok o) :
    (compile ("(" ++ query ++ ") ∪ (" ++ other ++ ")")).value =
      .ok ((e.move (.shift 1)).unite (o.move (.shift ("(" ++ query ++ ") ∪ (").length))) := by
  have hplace : ("(" ++ query ++ ") ∪ (").length =
      0 + ('(' :: (query.toList ++ [')'])).length + 3 + 1 := by simp [← String.length_toList]
  rw [hplace]
  exact compile_of_derives_scan
    ((Derives.single (derives_group_of_compile h 0)).union_scan
      (derives_group_of_compile h' _).expression) (by simp)

theorem compile_join {raw : String} (hraw : '}' ∉ raw.toList) (h : (compile query).value = .ok e)
    (h' : (compile other).value = .ok o) :
    (compile ("(" ++ query ++ ") ⋈_\x7b" ++ raw ++ "\x7d (" ++ other ++ ")")).value =
      .ok (.joinOn (keptText raw) (e.move (.shift 1))
        (o.move (.shift ("(" ++ query ++ ") ⋈_\x7b" ++ raw ++ "\x7d (").length))) := by
  have hplace : ("(" ++ query ++ ") ⋈_\x7b" ++ raw ++ "\x7d (").length =
      0 + ('(' :: (query.toList ++ [')'])).length + raw.length + 6 + 1 := by
    simp [← String.length_toList]
    omega
  rw [hplace]
  exact compile_of_derives_scan
    ((Derives.single (derives_group_of_compile h 0)).join_scan hraw
      (derives_group_of_compile h' _)) (by simp)

theorem compile_select {raw : String} (hraw : ']' ∉ raw.toList)
    (h : (compile query).value = .ok e) :
    (compile ("σ[" ++ raw ++ "](" ++ query ++ ")")).value =
      .ok (.select (keptText raw) (e.move (.shift ("σ[" ++ raw ++ "](").length))
        ⟨0, ("σ[" ++ raw ++ "](" ++ query ++ ")").length⟩) := by
  have hplace : ("σ[" ++ raw ++ "](").length = 0 + raw.length + 4 := by
    simp [← String.length_toList]
  have hstop : ("σ[" ++ raw ++ "](" ++ query ++ ")").length =
      0 + raw.length + query.toList.length + 5 := by
    simp [← String.length_toList]
    omega
  rw [hplace, hstop]
  exact compile_of_derives_scan ((derives_scan_of_compile h _).select_scan hraw) (by simp)

theorem compile_project {names : List String} (hnames : ∀ a ∈ names, IsName a)
    (h : (compile query).value = .ok e) :
    (compile ("π[" ++ ",".intercalate names ++ "](" ++ query ++ ")")).value =
      .ok (.project names (e.move (.shift ("π[" ++ ",".intercalate names ++ "](").length))
        ⟨0, ("π[" ++ ",".intercalate names ++ "](" ++ query ++ ")").length⟩) := by
  have hseparator : ",".toList = ',' :: [] := rfl
  have hlist := nameList_scan hseparator (by simp) hnames (0 + 2)
  generalize ",".intercalate names = list at hlist
  have hplace : ("π[" ++ list ++ "](").length = 0 + list.toList.length + 4 := by
    simp [← String.length_toList]
  have hstop : ("π[" ++ list ++ "](" ++ query ++ ")").length =
      0 + list.toList.length + query.toList.length + 5 := by
    simp [← String.length_toList]
    omega
  rw [hplace, hstop]
  exact compile_of_derives_scan ((derives_scan_of_compile h _).project_scan hlist) (by simp)

/-- Parentheses and operators around texts of queries. An operand is the tree of its text, moved to
where the text stands, and a condition is what tokens keep of the text between its delimiters. -/
theorem queries_compose (h : (compile query).value = .ok e) (h' : (compile other).value = .ok o) :
    (compile ("(" ++ query ++ ")")).value = .ok (e.move (.shift 1)) ∧
      (compile ("(" ++ query ++ ") ∪ (" ++ other ++ ")")).value =
        .ok ((e.move (.shift 1)).unite (o.move (.shift ("(" ++ query ++ ") ∪ (").length))) ∧
      (∀ raw : String, '}' ∉ raw.toList →
        (compile ("(" ++ query ++ ") ⋈_\x7b" ++ raw ++ "\x7d (" ++ other ++ ")")).value =
          .ok (.joinOn (keptText raw) (e.move (.shift 1))
            (o.move (.shift ("(" ++ query ++ ") ⋈_\x7b" ++ raw ++ "\x7d (").length)))) ∧
      (∀ raw : String, ']' ∉ raw.toList →
        (compile ("σ[" ++ raw ++ "](" ++ query ++ ")")).value =
          .ok (.select (keptText raw) (e.move (.shift ("σ[" ++ raw ++ "](").length))
            ⟨0, ("σ[" ++ raw ++ "](" ++ query ++ ")").length⟩)) ∧
      ∀ names : List String, (∀ a ∈ names, IsName a) →
        (compile ("π[" ++ ",".intercalate names ++ "](" ++ query ++ ")")).value =
          .ok (.project names (e.move (.shift ("π[" ++ ",".intercalate names ++ "](").length))
            ⟨0, ("π[" ++ ",".intercalate names ++ "](" ++ query ++ ")").length⟩) :=
  ⟨compile_group h, compile_union h h', fun _ hraw => compile_join hraw h h',
    fun _ hraw => compile_select hraw h, fun _ hnames => compile_project hnames h⟩

theorem queries_compose_conditions :
    (compile "(A ∪ B) ⋈_\x7bπ[x) = é_y(\x7d (C)").value =
        .ok (.join "π[x)=_y(" (.union (.relation "A" ⟨1, 2⟩) (.relation "B" ⟨5, 6⟩) ⟨1, 6⟩)
          (.relation "C" ⟨25, 26⟩) ⟨1, 26⟩) ∧
      (compile "σ[\x7bπ _a > 1 §](A ∪ B)").value =
        .ok (.select "\x7bπ_a>1" (.union (.relation "A" ⟨15, 16⟩) (.relation "B" ⟨19, 20⟩) ⟨15, 20⟩)
          ⟨0, 21⟩) ∧
      (compile "π[a,b](A ∪ B)").value =
        .ok (.project ["a", "b"] (.union (.relation "A" ⟨7, 8⟩) (.relation "B" ⟨11, 12⟩) ⟨7, 12⟩)
          ⟨0, 13⟩) := by
  have h : (compile "A ∪ B").value =
      .ok (.union (.relation "A" ⟨0, 1⟩) (.relation "B" ⟨4, 5⟩) ⟨0, 5⟩) := rfl
  have h' : (compile "C").value = .ok (.relation "C" ⟨0, 1⟩) := rfl
  have hnames : ∀ a ∈ ["a", "b"], IsName a := by simp [IsName, isIdentifierChar]
  obtain ⟨-, -, hjoin, hselect, hproject⟩ := queries_compose h h'
  exact ⟨hjoin "π[x) = é_y(" (by decide), hselect "\x7bπ _a > 1 §" (by decide),
    hproject ["a", "b"] hnames⟩

end RelTrace
