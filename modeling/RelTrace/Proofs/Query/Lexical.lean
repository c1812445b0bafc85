import RelTrace.Proofs.Query.Grammar
import RelTrace.Proofs.Text.Parts

/-!
# Tokens of a text

What the tokens of a text are made of. Their texts, one after another, are the characters of the
text that tokens keep; each is a symbol or a name; and a text falls apart into the tokens of its
pieces wherever a piece does not begin inside an identifier.

## Main definitions

* `Token.isKept`: the characters that tokens keep.
* `Token.IsName`: the texts of identifiers.
-/

namespace RelTrace.Token

/-- Tokens keep the characters of identifiers and the symbols. -/
def isKept (c : Char) : Bool := isIdentifierChar c || (Kind.ofSymbol? c).isSome

/-- A non-empty run of identifier characters that does not begin with an underscore. -/
def IsName (s : String) : Prop :=
  s.toList ≠ [] ∧ s.toList.head? ≠ some '_' ∧ ∀ c ∈ s.toList, isIdentifierChar c

instance : DecidablePred IsName := fun s =>
  have := List.decidableBAll (fun c => isIdentifierChar c) s.toList
  inferInstanceAs (Decidable (s.toList ≠ [] ∧ s.toList.head? ≠ some '_' ∧ _))

/-- A token is a symbol, or an identifier with the text of one. -/
def IsLexeme (t : Token) : Prop :=
  match t.kind.symbol? with
  | some c => t.text = String.ofList [c]
  | none => IsName t.text

/-- The symbol at a position, if the character is one. -/
def ofChar (position : Nat) (c : Char) : List Token :=
  ((Kind.ofSymbol? c).map fun kind => ⟨kind, String.ofList [c], position⟩).toList

/-- The character goes on with a run, or begins one. -/
def extendsRun (run : List Char) (c : Char) : Bool :=
  isIdentifierChar c && !(run.isEmpty && c == '_')

variable {position : Nat} {run cs ds : List Char} {c : Char} {t : Token}

theorem Kind.ofSymbol?_eq_some_iff {kind : Kind} :
    Kind.ofSymbol? c = some kind ↔ kind.symbol? = some c := by
  constructor
  · intro h
    unfold Kind.ofSymbol? at h
    split at h <;> cases h <;> rfl
  · intro h
    cases kind <;> cases h <;> rfl

theorem Kind.symbol?_eq_none {kind : Kind} : kind.symbol? = none ↔ kind = .identifier := by
  cases kind <;> simp [Kind.symbol?]

theorem isIdentifierChar_eq_false_of_ofSymbol? {kind : Kind} (h : Kind.ofSymbol? c = some kind)
    (hc : c ≠ '_') : isIdentifierChar c = false := by
  unfold Kind.ofSymbol? at h
  split at h <;> first | rfl | contradiction

@[simp] theorem ofRun_nil : ofRun position [] = [] := rfl

@[simp] theorem scan_nil : scan position run [] = ofRun position run := rfl

theorem scan_cons_of_extendsRun (h : extendsRun run c) :
    scan position run (c :: cs) = scan (position + 1) (c :: run) cs := by
  rw [scan]
  exact if_pos h

theorem scan_cons_of_not_extendsRun (h : extendsRun run c = false) :
    scan position run (c :: cs) =
      ofRun position run ++ (ofChar position c ++ scan (position + 1) [] cs) := by
  rw [scan, if_neg (by simpa [extendsRun] using h), ofChar]
  cases Kind.ofSymbol? c <;> simp

/-- A text falls apart before a character that cannot belong to an identifier. -/
theorem scan_append (h : ∀ d ∈ ds.head?, isIdentifierChar d = false) :
    scan position run (cs ++ ds) =
      scan position run cs ++ scan (position + cs.length) [] ds := by
  induction cs generalizing position run with
  | nil =>
    cases ds with
    | nil => simp
    | cons d ds =>
      have hd : isIdentifierChar d = false := h d rfl
      have hrun : ∀ run, extendsRun run d = false := by simp [extendsRun, hd]
      simp [scan_cons_of_not_extendsRun (hrun _)]
  | cons c cs ih =>
    have hlen : position + (c :: cs).length = position + 1 + cs.length := by simp; omega
    rw [List.cons_append, hlen]
    cases hc : extendsRun run c with
    | true => simp only [scan_cons_of_extendsRun hc, ih]
    | false => simp only [scan_cons_of_not_extendsRun hc, ih, List.append_assoc]

theorem joinTexts_ofRun : joinTexts (ofRun position run) = String.ofList run.reverse := by
  cases run <;> simp [ofRun]

/-- A text has no more tokens than characters. -/
theorem length_scan_le : (scan position run cs).length ≤ run.length + cs.length := by
  induction cs generalizing position run with
  | nil => cases run <;> simp [ofRun]
  | cons c cs ih =>
    cases hc : extendsRun run c with
    | true =>
      have hrest : (scan (position + 1) (c :: run) cs).length ≤ _ := ih
      rw [scan_cons_of_extendsRun hc]
      simp only [List.length_cons] at hrest ⊢
      omega
    | false =>
      have hrest : (scan (position + 1) [] cs).length ≤ _ := ih
      have hrun : (ofRun position run).length ≤ run.length := by cases run <;> simp [ofRun]
      have hsymbol : (ofChar position c).length ≤ 1 := by
        rw [ofChar]
        cases Kind.ofSymbol? c <;> simp
      rw [scan_cons_of_not_extendsRun hc]
      simp only [List.length_append, List.length_cons, List.length_nil] at hrest ⊢
      omega

theorem isKept_eq_false_iff :
    isKept c = false ↔ isIdentifierChar c = false ∧ Kind.ofSymbol? c = none := by
  simp [isKept]

theorem isKept_of_extendsRun (h : extendsRun run c) : isKept c := by
  simp only [extendsRun, Bool.and_eq_true] at h
  simp [isKept, h.1]

theorem isKept_of_not_extendsRun (h : extendsRun run c = false) :
    isKept c = (Kind.ofSymbol? c).isSome := by
  by_cases hc : c = '_'
  · subst hc
    rfl
  · have : isIdentifierChar c = false := by simpa [extendsRun, hc] using h
    simp [isKept, this]

theorem isBlank_eq_false_of_isKept (h : isKept c) : Text.isBlank c = false := by
  simp only [isKept, isIdentifierChar, Bool.or_eq_true, beq_iff_eq] at h
  rcases h with ((((((h | rfl) | rfl) | rfl) | rfl) | rfl) | rfl) | h
  · exact Text.isBlank_eq_false_of_isAlphanum h
  any_goals rfl
  · unfold Kind.ofSymbol? at h
    split at h <;> first | rfl | cases h

theorem isKept_eq_false_of_isBlank (h : Text.isBlank c) : isKept c = false := by
  cases hkept : isKept c with
  | false => rfl
  | true => exact absurd h (by simp [isBlank_eq_false_of_isKept hkept])

theorem joinTexts_ofChar (h : extendsRun run c = false) :
    joinTexts (ofChar position c) = String.ofList ([c].filter isKept) := by
  rw [ofChar]
  cases hc : Kind.ofSymbol? c <;> simp [isKept_of_not_extendsRun h, hc]

/-- The tokens keep every character but those that only separate. -/
theorem joinTexts_scan :
    joinTexts (scan position run cs) = String.ofList (run.reverse ++ cs.filter isKept) := by
  induction cs generalizing position run with
  | nil => simp [joinTexts_ofRun]
  | cons c cs ih =>
    cases hc : extendsRun run c with
    | true => simp [scan_cons_of_extendsRun hc, ih, isKept_of_extendsRun hc]
    | false =>
      have hfilter : (c :: cs).filter isKept = [c].filter isKept ++ cs.filter isKept := by
        rw [← List.filter_append, List.singleton_append]
      rw [scan_cons_of_not_extendsRun hc, hfilter]
      simp only [joinTexts_append, joinTexts_ofRun, joinTexts_ofChar hc, ih]
      simp [String.ofList_append]

/-- A run that may become an identifier. -/
def IsRun (run : List Char) : Prop :=
  run.getLast? ≠ some '_' ∧ ∀ c ∈ run, isIdentifierChar c

theorem IsRun.nil : IsRun [] := by simp [IsRun]

theorem IsRun.cons (hrun : IsRun run) (h : extendsRun run c) : IsRun (c :: run) := by
  simp only [extendsRun, Bool.and_eq_true] at h
  refine ⟨?_, by simpa using ⟨h.1, hrun.2⟩⟩
  cases run with
  | nil => simpa using h.2
  | cons d run => simpa using hrun.1

theorem isLexeme_of_mem_ofRun (hrun : IsRun run) (h : t ∈ ofRun position run) : t.IsLexeme := by
  cases run with
  | nil => simp at h
  | cons c run =>
    obtain rfl := List.mem_singleton.mp h
    refine ⟨by simp, ?_, ?_⟩
    · simpa only [String.toList_ofList, List.head?_reverse] using hrun.1
    · simpa only [String.toList_ofList, List.mem_reverse] using hrun.2

theorem isLexeme_of_mem_ofChar (h : t ∈ ofChar position c) : t.IsLexeme := by
  simp only [ofChar, Option.mem_toList, Option.map_eq_some_iff] at h
  obtain ⟨kind, hkind, rfl⟩ := h
  simp [IsLexeme, Kind.ofSymbol?_eq_some_iff.mp hkind]

theorem isLexeme_of_mem_scan (hrun : IsRun run) (h : t ∈ scan position run cs) : t.IsLexeme := by
  induction cs generalizing position run with
  | nil => exact isLexeme_of_mem_ofRun hrun h
  | cons c cs ih =>
    cases hc : extendsRun run c with
    | true => exact ih (hrun.cons hc) (scan_cons_of_extendsRun hc ▸ h)
    | false =>
      rw [scan_cons_of_not_extendsRun hc] at h
      simp only [List.mem_append] at h
      rcases h with h | h | h
      · exact isLexeme_of_mem_ofRun hrun h
      · exact isLexeme_of_mem_ofChar h
      · exact ih .nil h

/-- A text without a symbol has no token of its kind. -/
theorem kind_ne_of_not_mem {symbol : Char} {kind : Kind} (h : symbol ∉ cs)
    (hkind : kind.symbol? = some symbol) : ∀ t ∈ scan position [] cs, t.kind ≠ kind := by
  rintro t ht rfl
  have htext : t.text = String.ofList [symbol] := by
    simpa [IsLexeme, hkind] using isLexeme_of_mem_scan .nil ht
  have hmem : symbol ∈ (joinTexts (scan position [] cs)).toList := by
    simp only [joinTexts, String.toList_join, List.mem_flatMap, List.mem_map]
    exact ⟨t.text, ⟨t, ht, rfl⟩, by simp [htext]⟩
  rw [joinTexts_scan, List.reverse_nil, List.nil_append, String.toList_ofList] at hmem
  exact h (List.mem_filter.mp hmem).1

/-- A run that is not empty goes on with every identifier character. -/
theorem scan_of_isIdentifierChar (hrun : run ≠ []) (h : ∀ c ∈ cs, isIdentifierChar c) :
    scan position run cs = ofRun (position + cs.length) (cs.reverse ++ run) := by
  induction cs generalizing position run with
  | nil => simp
  | cons c cs ih =>
    have hc : extendsRun run c := by
      have := h c (by simp)
      simp [extendsRun, this, hrun]
    have hlen : position + (c :: cs).length = position + 1 + cs.length := by simp; omega
    rw [scan_cons_of_extendsRun hc, ih (by simp) fun d hd => h d (by simp [hd]), hlen]
    simp

/-- A name is one token. -/
theorem IsName.scan {s : String} (h : IsName s) :
    scan position [] s.toList = [⟨.identifier, s, position⟩] := by
  obtain ⟨hnonempty, hhead, hall⟩ := h
  cases hs : s.toList with
  | nil => exact absurd hs hnonempty
  | cons c cs =>
    rw [hs] at hhead hall
    have hne : c ≠ '_' := by simpa using hhead
    have hc : extendsRun [] c := by simpa [extendsRun] using ⟨hall c (by simp), hne⟩
    have hcs : ∀ d ∈ cs, isIdentifierChar d := fun d hd => hall d (by simp [hd])
    rw [scan_cons_of_extendsRun hc, scan_of_isIdentifierChar (by simp) hcs]
    have hlen : position + 1 + cs.length - (cs.reverse ++ [c]).length = position := by simp; omega
    have htext : String.ofList (c :: cs) = s := by rw [← hs, String.ofList_toList]
    simp only [ofRun, hlen]
    simp [htext]

/-- A symbol that cannot belong to an identifier is one token. -/
theorem scan_symbol {k : Kind} (h : Kind.ofSymbol? c = some k) :
    scan position [] (c :: cs) = ⟨k, String.ofList [c], position⟩ :: scan (position + 1) [] cs := by
  have hc : extendsRun [] c = false := by
    by_cases hunderscore : c = '_'
    · simp [extendsRun, hunderscore]
    · simp [extendsRun, isIdentifierChar_eq_false_of_ofSymbol? h hunderscore]
  simp [scan_cons_of_not_extendsRun hc, ofChar, h]

theorem scan_space : scan position [] (' ' :: cs) = scan (position + 1) [] cs := rfl

end RelTrace.Token
