import RelTrace.Proofs.Number.Spelling
import RelTrace.Proofs.Text.Parts
import RelTrace.Proofs.Value.Places

/-!
# Numbers in texts

Exactly the decimal spellings are numbers, both as literals of conditions and as texts in rows. The
spellings of doubles at large include names for the infinities and for what is not a number; these
have letters that occur in no decimal spelling, so its characters tell a decimal spelling from them.
A value that is not a text meets a number at its place, and there it meets the quoted spelling too.

## Main definitions

* `isNumeralChar`: the characters of decimal spellings.
* `IsDouble`: the spellings of doubles, finite or not.
-/

namespace RelTrace

section Spellings

variable {cs : List Char} {c : Char}

/-- The characters of decimal spellings. -/
def isNumeralChar (c : Char) : Bool := isDecimalChar c || c = '+' || c = '-'

/-- The spelling of a double: a decimal one, or the name of a value that is not finite, in letters
of either case. -/
inductive IsDouble : List Char → Prop
  | decimal {cs : List Char} (h : IsDecimal cs) : IsDouble cs
  | named {sign name : List Char} (hsign : IsSign sign)
      (hname : name.map Char.toLower ∈ ["inf".toList, "infinity".toList, "nan".toList]) :
      IsDouble (sign ++ name)

theorem isNumeralChar_iff : isNumeralChar c ↔ c.isDigit ∨ c ∈ ['.', 'e', 'E', '+', '-'] := by
  simp [isNumeralChar, isDecimalChar, or_assoc]

theorem toNat_of_isNumeralChar (h : isNumeralChar c) : 43 ≤ c.toNat ∧ c.toNat ≤ 101 := by
  rcases isNumeralChar_iff.mp h with hdigit | hmem
  · have hbounds : 48 ≤ c.toNat ∧ c.toNat ≤ 57 := Char.isDigit_iff_toNat.mp hdigit
    omega
  · have hmarks : ['.', 'e', 'E', '+', '-'].all fun c => 43 ≤ c.toNat ∧ c.toNat ≤ 101 := by decide
    simpa using List.all_eq_true.mp hmarks c hmem

theorem isBlank_eq_false_of_isNumeralChar (h : isNumeralChar c) : Text.isBlank c = false := by
  have hbounds := toNat_of_isNumeralChar h
  exact Text.isBlank_eq_false_of_toNat (by omega) (by omega)

theorem toLower_ne_of_isNumeralChar (h : isNumeralChar c) : c.toLower ≠ 'n' := by
  rcases isNumeralChar_iff.mp h with hdigit | hmem
  · have hbounds : 48 ≤ c.toNat ∧ c.toNat ≤ 57 := Char.isDigit_iff_toNat.mp hdigit
    have hlower : c.toLower = c := dif_neg fun hupper => by
      have hge : 65 ≤ c.toNat := hupper.1
      omega
    rw [hlower]
    rintro rfl
    cases hdigit
  · have hmarks : ['.', 'e', 'E', '+', '-'].all fun c => c.toLower ≠ 'n' := by decide
    simpa using List.all_eq_true.mp hmarks c hmem

theorem isNumeralChar_of_isDecimal (h : IsDecimal cs) : ∀ c ∈ cs, isNumeralChar c := by
  intro c hc
  by_cases hsign : c ≠ '+' ∧ c ≠ '-'
  · have hmem : c ∈ dropSigns cs := List.mem_filter.mpr ⟨hc, decide_eq_true hsign⟩
    simp [isNumeralChar, isDecimalChar_of_mem_dropSigns h c hmem]
  · grind [isNumeralChar]

/-- The characters tell the decimal spellings of doubles from the others. -/
theorem isDecimal_iff_isDouble : IsDecimal cs ↔ (∀ c ∈ cs, isNumeralChar c) ∧ IsDouble cs := by
  refine ⟨fun h => ⟨isNumeralChar_of_isDecimal h, .decimal h⟩, fun ⟨hchars, hdouble⟩ => ?_⟩
  cases hdouble with
  | decimal h => exact h
  | @named sign name hsign hname =>
    have hletter : ∀ word ∈ ["inf".toList, "infinity".toList, "nan".toList], 'n' ∈ word := by
      decide
    obtain ⟨c, hc, hlower⟩ := List.mem_map.mp (hletter _ hname)
    exact absurd hlower (toLower_ne_of_isNumeralChar (hchars c (List.mem_append_right _ hc)))

end Spellings

theorem IsDecimal.isTrimmed {cs : List Char} (h : IsDecimal cs) {margin : Char → Bool}
    (hmargin : ∀ c, isNumeralChar c → margin c = false) : Text.IsTrimmed margin cs := by
  apply Text.isTrimmed_of_forall h.ne_nil
  intro c hc
  exact hmargin c (isNumeralChar_of_isDecimal h c hc)

namespace Value

variable {t : String} {n : Number}

theorem reading?_text_of_isBlankText (h : Text.isBlankText t) : (text t).reading? = some .zero := by
  simp [reading?, h]

theorem isSome_reading?_text_iff (h : ¬ Text.isBlankText t) :
    (text t).reading?.isSome ↔ IsDecimal (Text.trim t).toList := by
  rw [reading?, if_neg h, Number.isSome_read?_iff]

/-- A spelling reads as the number that it spells. -/
theorem reading?_text_of_read? (h : Number.read? t = some n) : (text t).reading? = some n := by
  have hdecimal := Number.isDecimal_of_read? h
  have htrimmed := hdecimal.isTrimmed fun c => isBlank_eq_false_of_isNumeralChar
  have htext : Text.trim t = t := by rw [Text.trim, htrimmed.strip_eq, String.ofList_toList]
  have hblank : ¬ Text.isBlankText t := fun hblank => by
    have hnil := Text.strip_eq_nil_iff.mpr (List.all_eq_true.mp hblank)
    exact hdecimal.ne_nil (htrimmed.strip_eq.symm.trans hnil)
  rw [reading?, if_neg hblank, htext, h]

theorem place?_text_of_read? (h : Number.read? t = some n) :
    (number n).place? = (text t).place? := by
  rw [place?_number, place?, reading?_text_of_read? h, Option.bind_some]

end Value

namespace Comparison

theorem readLiteral_of_read? {t : String} {n : Number} (h : Number.read? t = some n) :
    readLiteral t = .number n := by
  simp [readLiteral, h]

theorem isQuote_eq_false_of_isNumeralChar {c : Char} (h : isNumeralChar c) : isQuote c = false := by
  rw [Bool.eq_false_iff]
  intro hquote
  simp only [isQuote, Bool.or_eq_true, decide_eq_true_eq] at hquote
  rcases hquote with rfl | rfl <;> cases h

/-- A quoted spelling is a text. -/
theorem readLiteral_quoted {t : String} {q : Char} (ht : IsDecimal t.toList) (hq : isQuote q) :
    readLiteral (.singleton q ++ t ++ .singleton q) = .text t := by
  have hlist : (String.singleton q ++ t ++ .singleton q).toList = [q] ++ t.toList ++ [q] := by simp
  have hread : Number.read? (.singleton q ++ t ++ .singleton q) = none := by
    rw [← Option.not_isSome_iff_eq_none, Number.isSome_read?_iff, hlist]
    intro hdecimal
    have hchar := isNumeralChar_of_isDecimal hdecimal q (by simp)
    exact Bool.false_ne_true ((isQuote_eq_false_of_isNumeralChar hchar).symm.trans hq)
  have htrimmed := ht.isTrimmed fun c => isQuote_eq_false_of_isNumeralChar
  have hcore : Text.HasCore isQuote ([q] ++ t.toList ++ [q]) t.toList :=
    ⟨htrimmed, [q], [q], by simpa using hq, by simpa using hq, rfl⟩
  rw [readLiteral, hread, hlist, hcore.strip_eq, String.ofList_toList]

end Comparison

/-- Exactly the decimal spellings are numbers, and no value that is not a text tells a number from
its quoted spelling. -/
theorem decimal_spellings_are_the_numbers :
    (∀ t : String, (Number.read? t).isSome ↔ IsDecimal t.toList) ∧
    (∀ t : String, (Number.read? t).isSome ↔
      (∀ c ∈ t.toList, isNumeralChar c) ∧ IsDouble t.toList) ∧
    (∀ (t : String) (n : Number), Number.read? t = some n → ∀ payload, n ≠ .nan payload) ∧
    (∀ t : String, if Text.isBlankText t then (Value.text t).reading? = some .zero
      else (Value.text t).reading?.isSome ↔ IsDecimal (Text.trim t).toList) ∧
    ∀ (v : Value) (t : String), ¬ v.isText → IsDecimal t.toList →
      ∃ n, Number.read? t = some n ∧ Comparison.readLiteral t = .number n ∧
        (∀ q, Comparison.isQuote q →
          Comparison.readLiteral (.singleton q ++ t ++ .singleton q) = .text t) ∧
        v.looselyEqual (.number n) = v.looselyEqual (.text t) ∧
        v.looselyCompare? (.number n) = v.looselyCompare? (.text t) := by
  refine ⟨fun t => Number.isSome_read?_iff, ?_, ?_, ?_, ?_⟩
  · exact fun t => Number.isSome_read?_iff.trans isDecimal_iff_isDouble
  · exact fun t n h => Number.isSome_rank?_iff.mp (Number.isSome_rank?_of_read? h)
  · intro t
    split
    · next hblank => exact Value.reading?_text_of_isBlankText hblank
    · next hblank => exact Value.isSome_reading?_text_iff hblank
  · intro v t hv ht
    obtain ⟨n, hn⟩ := Option.isSome_iff_exists.mp (Number.isSome_read?_iff.mpr ht)
    have hplace := Value.place?_text_of_read? hn
    exact ⟨n, hn, Comparison.readLiteral_of_read? hn,
      fun q hq => Comparison.readLiteral_quoted ht hq, Value.looselyEqual_congr hv hplace,
      Value.looselyCompare?_congr hv hplace⟩

example : ["", "+", ".", "1e", "1_000", "inf", "NaN"].map Number.read? = .replicate 7 none := by
  decide

theorem decimal_spellings_are_the_numbers_signed :
    ∃ n, Number.read? "+10.E-1" = some n ∧ (∀ payload, n ≠ .nan payload) ∧
      Comparison.readLiteral "+10.E-1" = .number n ∧
      Comparison.readLiteral "'+10.E-1'" = .text "+10.E-1" ∧
      (Value.bool true).looselyEqual (.number n) =
        (Value.bool true).looselyEqual (.text "+10.E-1") ∧
      (Value.bool true).looselyCompare? (.number n) =
        (Value.bool true).looselyCompare? (.text "+10.E-1") := by
  obtain ⟨hspelling, -, hfinite, -, hmeets⟩ := decimal_spellings_are_the_numbers
  have hdecimal : IsDecimal "+10.E-1".toList := (hspelling _).mp (by decide)
  obtain ⟨n, hn, hliteral, hquoted, hequal, hcompare⟩ :=
    hmeets (.bool true) "+10.E-1" (by decide) hdecimal
  exact ⟨n, hn, hfinite _ n hn, hliteral, hquoted '\'' rfl, hequal, hcompare⟩

end RelTrace
