import RelTrace.Condition
import RelTrace.Proofs.Text.Parts

/-!
# Reading comparisons

A condition is read at the first of the six symbols that stands in it exactly once with a text on
both sides. Between sides without `<`, `>` and `=` that is the symbol which is written there, since
whatever is looked for earlier has a character that is missing. The symbol `!=` is the exception:
its equals sign is found first, and the exclamation mark goes to the attribute. It is read only
where there are more equals signs.

## Main definitions

* `Comparator.IsFound`: the symbol stands once, with a text on both sides.
* `Comparator.Divides`: the attribute and the literal on the sides of the symbol.
* `Comparator.Precedes`: the order in which symbols are looked for.
* `IsSide`, `IsPlain`: the texts that may stand on the sides of a comparison symbol.
-/

namespace RelTrace

namespace Comparator

variable {c d : Comparator} {text : String}

/-- The symbol stands in the text exactly once, and neither side of it is blank. -/
def IsFound (c : Comparator) (text : String) : Prop :=
  ∃ before after, Text.StandsOnce c.symbol.toList text.toList before after ∧
    (∃ x ∈ before, Text.isBlank x = false) ∧ ∃ x ∈ after, Text.isBlank x = false

/-- The symbol stands in the text exactly once, between an attribute and a literal with any blanks
around them. -/
def Divides (c : Comparator) (text subject literal : String) : Prop :=
  ∃ before after, Text.StandsOnce c.symbol.toList text.toList before after ∧
    Text.HasCore Text.isBlank before subject.toList ∧ Text.HasCore Text.isBlank after literal.toList

/-- The symbol is looked for before the other one. -/
def Precedes (d c : Comparator) : Prop := searchOrder.idxOf d < searchOrder.idxOf c

instance : DecidableRel Precedes := fun d c =>
  inferInstanceAs (Decidable (searchOrder.idxOf d < searchOrder.idxOf c))

theorem mem_searchOrder (c : Comparator) : c ∈ searchOrder := by
  cases c <;> decide

theorem nodup_symbol (c : Comparator) : c.symbol.toList.Nodup := by
  cases c <;> decide

theorem symbol_ne_nil (c : Comparator) : c.symbol.toList ≠ [] := by
  cases c <;> decide

theorem soleCut?_symbol_iff {before after : List Char} :
    Text.soleCut? c.symbol.toList text.toList = some (before, after) ↔
      Text.StandsOnce c.symbol.toList text.toList before after :=
  Text.soleCut?_eq_some_iff c.nodup_symbol c.symbol_ne_nil

theorem isFound_iff : c.IsFound text ↔ ∃ subject literal, c.Divides text subject literal := by
  constructor
  · rintro ⟨before, after, hstands, hbefore, hafter⟩
    obtain ⟨subject, hsubject⟩ := Text.exists_hasCore_iff.mpr hbefore
    obtain ⟨literal, hliteral⟩ := Text.exists_hasCore_iff.mpr hafter
    exact ⟨.ofList subject, .ofList literal, before, after, hstands, by simpa using hsubject,
      by simpa using hliteral⟩
  · rintro ⟨subject, literal, before, after, hstands, hsubject, hliteral⟩
    exact ⟨before, after, hstands, Text.exists_hasCore_iff.mp ⟨_, hsubject⟩,
      Text.exists_hasCore_iff.mp ⟨_, hliteral⟩⟩

/-- A symbol stands only in texts that have its characters. -/
theorem IsFound.subset (h : c.IsFound text) : c.symbol.toList ⊆ text.toList := by
  obtain ⟨before, after, ⟨htext, -⟩, -⟩ := h
  simp [htext]

end Comparator

namespace Comparison

variable {c : Comparator} {text : String} {x : Comparison}

theorem readWith?_eq_some_iff :
    readWith? text c = some x ↔ x.comparator = c ∧
      ∃ literal, c.Divides text x.subject literal ∧ x.literal = readLiteral literal := by
  constructor
  · intro h
    simp only [readWith?] at h
    split at h
    · next before after hcut =>
      split at h
      · cases h
      · next hsides =>
        obtain ⟨hsubject, hliteral⟩ := not_or.mp hsides
        cases h
        refine ⟨rfl, _, ⟨before, after, Comparator.soleCut?_symbol_iff.mp hcut, ?_, ?_⟩, rfl⟩
        · simpa using Text.hasCore_strip hsubject
        · simpa using Text.hasCore_strip hliteral
    · cases h
  · rintro ⟨rfl, literal, ⟨before, after, hstands, hsubject, hliteral⟩, hvalue⟩
    have hsides : ¬ (x.subject.toList = [] ∨ literal.toList = []) :=
      not_or.mpr ⟨hsubject.1.ne_nil, hliteral.1.ne_nil⟩
    simp only [readWith?, Comparator.soleCut?_symbol_iff.mpr hstands, hsubject.strip_eq,
      hliteral.strip_eq, if_neg hsides, String.ofList_toList, ← hvalue]

theorem readWith?_eq_none_iff : readWith? text c = none ↔ ¬ c.IsFound text := by
  rw [Comparator.isFound_iff, Option.eq_none_iff_forall_ne_some]
  constructor
  · rintro h ⟨subject, literal, hdivides⟩
    exact h ⟨subject, c, readLiteral literal⟩
      (readWith?_eq_some_iff.mpr ⟨rfl, literal, hdivides, rfl⟩)
  · intro h x hx
    obtain ⟨-, literal, hdivides, -⟩ := readWith?_eq_some_iff.mp hx
    exact h ⟨x.subject, literal, hdivides⟩

instance : Decidable (c.IsFound text) :=
  decidable_of_iff ((readWith? text c).isSome) <| by
    rw [← Option.ne_none_iff_isSome, ne_eq, readWith?_eq_none_iff, not_not]

/-- A text is read at the first symbol that is found in it. -/
theorem read?_eq_some_iff :
    read? text = some x ↔
      (∃ literal, x.comparator.Divides text x.subject literal ∧
        x.literal = readLiteral literal) ∧
      ∀ d : Comparator, d.Precedes x.comparator → ¬ d.IsFound text := by
  simp only [← readWith?_eq_none_iff, Comparator.Precedes]
  rw [read?, List.findSome?_eq_some_iff]
  constructor
  · rintro ⟨earlier, c, later, horder, hx, hearlier⟩
    obtain ⟨rfl, hliteral⟩ := readWith?_eq_some_iff.mp hx
    refine ⟨hliteral, fun d hd => hearlier d ?_⟩
    rw [horder] at hd
    grind [List.idxOf_cons_self]
  · rintro ⟨hliteral, hearlier⟩
    obtain ⟨earlier, later, horder, hnew⟩ :=
      List.eq_append_cons_of_mem (Comparator.mem_searchOrder x.comparator)
    refine ⟨earlier, x.comparator, later, horder, readWith?_eq_some_iff.mpr ⟨rfl, hliteral⟩, ?_⟩
    intro d hd
    apply hearlier
    rw [horder]
    grind [List.idxOf_cons_self, List.idxOf_lt_length_iff]

theorem read?_eq_none_iff : read? text = none ↔ ∀ c : Comparator, ¬ c.IsFound text := by
  simp only [read?, List.findSome?_eq_none_iff, readWith?_eq_none_iff, Comparator.mem_searchOrder,
    true_imp_iff]

end Comparison

/-- The signs that begin every comparison symbol but `!=`. -/
def isOrderSign (c : Char) : Bool := c = '<' || c = '>' || c = '='

/-- A text that can be told from the comparison symbol beside it and from the blanks around it. -/
def IsSide (cs : List Char) : Prop :=
  Text.IsTrimmed Text.isBlank cs ∧ ∀ c ∈ cs, isOrderSign c = false

theorem isSide_iff {cs : List Char} :
    IsSide cs ↔ Text.IsTrimmed Text.isBlank cs ∧ cs.all (!isOrderSign ·) := by
  simp [IsSide]

instance : DecidablePred IsSide := fun _ => decidable_of_iff' _ isSide_iff

/-- The characters of comparison symbols. -/
def isComparisonSign (c : Char) : Bool := c = '<' || c = '>' || c = '=' || c = '!'

/-- A text in which no comparison symbol and no margin is found. -/
def IsPlain (cs : List Char) : Prop :=
  cs ≠ [] ∧ ∀ c ∈ cs, isComparisonSign c = false ∧ Text.isBlank c = false

theorem IsPlain.isSide {cs : List Char} (h : IsPlain cs) : IsSide cs := by
  refine ⟨Text.isTrimmed_of_forall h.1 fun c hc => (h.2 c hc).2, fun c hc => ?_⟩
  have hsign := (h.2 c hc).1
  simp_all [isComparisonSign, isOrderSign]

theorem isBlank_eq_false_of_isOrderSign {m : Char} (hm : isOrderSign m) :
    Text.isBlank m = false := by
  simp only [isOrderSign, Bool.or_eq_true, decide_eq_true_eq] at hm
  rcases hm with (rfl | rfl) | rfl <;> rfl

theorem IsSide.not_mem_padded {cs gap gap' : List Char} {m : Char} (h : IsSide cs)
    (hgap : ∀ c ∈ gap, Text.isBlank c) (hgap' : ∀ c ∈ gap', Text.isBlank c)
    (hm : isOrderSign m) : m ∉ gap ++ cs ++ gap' := by
  have hblank := isBlank_eq_false_of_isOrderSign hm
  have hside : m ∉ cs := fun hmem => Bool.false_ne_true ((h.2 m hmem).symm.trans hm)
  grind

theorem Comparator.exists_cons_symbol {c : Comparator} (hc : c ≠ .different) :
    ∃ m rest, c.symbol.toList = m :: rest ∧ isOrderSign m := by
  cases c with
  | atLeast | atMost | above | below | same => exact ⟨_, _, rfl, rfl⟩
  | different => exact absurd rfl hc

/-- What is looked for earlier has a sign that the written symbol lacks. -/
theorem Comparator.exists_missing_of_precedes {c d : Comparator} (hc : c ≠ .different)
    (hd : d.Precedes c) : ∃ m ∈ d.symbol.toList, m ∉ c.symbol.toList ∧ isOrderSign m := by
  have hmissing : d.symbol.toList.any fun m => m ∉ c.symbol.toList ∧ isOrderSign m := by
    revert hc hd
    cases c <;> cases d <;> decide
  simpa using hmissing

namespace Comparison

section Sides

variable {a l g₁ g₂ g₃ g₄ : String} {c : Comparator} (ha : IsSide a.toList) (hl : IsSide l.toList)
  (hblank : ∀ g ∈ [g₁, g₂, g₃, g₄], Text.isBlankText g)
include ha hl hblank

/-- Between two sides, whatever symbol was written is the first one to be found. -/
theorem read?_between (hc : c ≠ .different) :
    read? (g₁ ++ a ++ g₂ ++ c.symbol ++ g₃ ++ l ++ g₄) = some ⟨a, c, readLiteral l⟩ := by
  have hgap : ∀ g ∈ [g₁, g₂, g₃, g₄], ∀ x ∈ g.toList, Text.isBlank x := fun g hg =>
    List.all_eq_true.mp (hblank g hg)
  simp only [List.forall_mem_cons] at hgap
  obtain ⟨h₁, h₂, h₃, h₄, -⟩ := hgap
  have hbefore {m : Char} (hm : isOrderSign m) := ha.not_mem_padded h₁ h₂ hm
  have hafter {m : Char} (hm : isOrderSign m) := hl.not_mem_padded h₃ h₄ hm
  have hlist : (g₁ ++ a ++ g₂ ++ c.symbol ++ g₃ ++ l ++ g₄).toList =
      (g₁.toList ++ a.toList ++ g₂.toList) ++ c.symbol.toList ++
        (g₃.toList ++ l.toList ++ g₄.toList) := by
    simp
  generalize g₁ ++ a ++ g₂ ++ c.symbol ++ g₃ ++ l ++ g₄ = text at hlist
  have hdivides : c.Divides text a l := by
    refine ⟨_, _, ?_, ⟨ha.1, _, _, h₁, h₂, rfl⟩, ⟨hl.1, _, _, h₃, h₄, rfl⟩⟩
    obtain ⟨m, rest, hsymbol, hm⟩ := Comparator.exists_cons_symbol hc
    rw [← Comparator.soleCut?_symbol_iff, hlist, hsymbol]
    exact Text.soleCut?_append (hbefore hm) (hafter hm)
  refine read?_eq_some_iff.mpr ⟨⟨l, hdivides, rfl⟩, fun d hd hfound => ?_⟩
  obtain ⟨m, hmem, hmissing, hm⟩ := Comparator.exists_missing_of_precedes hc hd
  have hmtext := hfound.subset hmem
  rw [hlist, List.mem_append, List.mem_append] at hmtext
  rcases hmtext with (h | h) | h
  · exact hbefore hm h
  · exact hmissing h
  · exact hafter hm h

/-- The equals sign of `!=` is found first, and the exclamation mark goes to the attribute. -/
theorem read?_between_different :
    read? (g₁ ++ a ++ "!=" ++ g₃ ++ l ++ g₄) = some ⟨a ++ "!", .same, readLiteral l⟩ := by
  have hmarked : IsSide (a ++ "!").toList := by
    obtain ⟨⟨hne, hhead, -⟩, hsigns⟩ := ha
    rw [String.toList_append]
    refine ⟨⟨by simp, ?_, by simp; decide⟩, ?_⟩
    · rwa [List.head?_append_of_ne_nil _ hne]
    · grind [isOrderSign]
  have hgaps : ∀ g ∈ [g₁, "", g₃, g₄], Text.isBlankText g := by
    have hempty : Text.isBlankText "" := rfl
    simp_all
  have hread := read?_between hmarked hl hgaps (c := .same) (by decide)
  simpa [Comparator.symbol, String.append_assoc] using hread

end Sides

/-- Only where an equals sign is repeated can `!=` be the symbol. -/
theorem two_le_count_of_different {text : String} {x : Comparison} (h : read? text = some x)
    (hx : x.comparator = .different) : 2 ≤ text.toList.count '=' := by
  obtain ⟨⟨literal, hdivides, -⟩, hearlier⟩ := read?_eq_some_iff.mp h
  rw [hx] at hdivides hearlier
  by_contra hcount
  apply hearlier .same (by decide)
  obtain ⟨before, after, ⟨htext, -⟩, hbefore, hafter⟩ :=
    Comparator.isFound_iff.mpr ⟨_, _, hdivides⟩
  -- The only equals sign is that of the symbol, where `=` is found between the same sides.
  have htext : text.toList = (before ++ ['!']) ++ ['='] ++ after := by
    simpa [Comparator.symbol] using htext
  have hcounts : before.count '=' = 0 ∧ after.count '=' = 0 := by
    rw [htext] at hcount
    simp at hcount
    omega
  refine ⟨before ++ ['!'], after, ?_, ?_, hafter⟩
  · rw [← Comparator.soleCut?_symbol_iff, htext]
    change Text.soleCut? ['='] _ = _
    refine Text.soleCut?_append ?_ (List.count_eq_zero.mp hcounts.2)
    simpa using List.count_eq_zero.mp hcounts.1
  · obtain ⟨m, hm, hmblank⟩ := hbefore
    exact ⟨m, List.mem_append_left _ hm, hmblank⟩

/-- The symbol `!=` is the exception: its equals sign is found first. -/
theorem read?_eq {subject literal : List Char} {c : Comparator} (hsubject : IsPlain subject)
    (hliteral : IsPlain literal) (hc : c ≠ .different) :
    read? (String.ofList (subject ++ c.symbol.toList ++ literal)) =
      some ⟨String.ofList subject, c, readLiteral (String.ofList literal)⟩ := by
  have hempty : ∀ g ∈ ["", "", "", ""], Text.isBlankText g := by simp [Text.isBlankText]
  have ha : IsSide (String.ofList subject).toList := by simpa using hsubject.isSide
  have hl : IsSide (String.ofList literal).toList := by simpa using hliteral.isSide
  simpa [String.ofList_append, String.append_assoc] using read?_between ha hl hempty hc

end Comparison

/-- How a condition is read: what is written between two sides, what any text is read as, when `!=`
can be the symbol, and which texts are no comparisons. -/
theorem comparison_read_at_first_sole_symbol :
    (∀ a l g₁ g₂ g₃ g₄ : String, IsSide a.toList → IsSide l.toList →
      (∀ g ∈ [g₁, g₂, g₃, g₄], Text.isBlankText g) →
      (∀ c : Comparator, c ≠ .different →
        Comparison.read? (g₁ ++ a ++ g₂ ++ c.symbol ++ g₃ ++ l ++ g₄) =
          some ⟨a, c, Comparison.readLiteral l⟩) ∧
      Comparison.read? (g₁ ++ a ++ "!=" ++ g₃ ++ l ++ g₄) =
        some ⟨a ++ "!", .same, Comparison.readLiteral l⟩) ∧
    (∀ (text : String) (x : Comparison), Comparison.read? text = some x ↔
      (∃ literal, x.comparator.Divides text x.subject literal ∧
        x.literal = Comparison.readLiteral literal) ∧
      ∀ d : Comparator, d.Precedes x.comparator → ¬ d.IsFound text) ∧
    (∀ (text : String) (x : Comparison), Comparison.read? text = some x →
      x.comparator = .different → 2 ≤ text.toList.count '=') ∧
    ∀ text : String, Comparison.read? text = none ↔ ∀ c : Comparator, ¬ c.IsFound text := by
  refine ⟨fun a l g₁ g₂ g₃ g₄ ha hl hblank => ⟨fun c hc => ?_, ?_⟩, ?_, ?_, ?_⟩
  · exact Comparison.read?_between ha hl hblank hc
  · exact Comparison.read?_between_different ha hl hblank
  · exact fun text x => Comparison.read?_eq_some_iff
  · exact fun text x => Comparison.two_le_count_of_different
  · exact fun text => Comparison.read?_eq_none_iff

theorem comparison_read_at_first_sole_symbol_marked :
    let yes : Value := Comparison.readLiteral "'yes!'"
    Comparison.read? (" " ++ "is old!" ++ " " ++ ">=" ++ "" ++ "'yes!'" ++ "") =
        some ⟨"is old!", .atLeast, yes⟩ ∧
      Comparison.read? (" " ++ "is old!" ++ "!=" ++ "" ++ "'yes!'" ++ "") =
        some ⟨"is old!!", .same, yes⟩ ∧
      Comparison.read? "a!=b=c" = some ⟨"a", .different, .text "b=c"⟩ ∧
      2 ≤ "a!=b=c".toList.count '=' := by
  intro yes
  obtain ⟨hsides, -, hdifferent, -⟩ := comparison_read_at_first_sole_symbol
  have ha : IsSide "is old!".toList := by decide
  have hl : IsSide "'yes!'".toList := by decide
  obtain ⟨hwritten, hmarked⟩ := hsides _ _ " " " " "" "" ha hl (by decide)
  have hread : Comparison.read? "a!=b=c" = some ⟨"a", .different, .text "b=c"⟩ := by decide
  exact ⟨hwritten .atLeast (by decide), hmarked, hread, hdifferent _ _ hread rfl⟩

end RelTrace
