import RelTrace.Proofs.Json.Accuracy
import RelTrace.Proofs.Value.Places

/-!
# Texts of numbers are read back

The text of a finite number is a numeral that spells it, so a text in a table is read as an equal
number, and so is a text in JSON by whoever rounds once. The reader of JSON texts rounds more than
once. It never refuses a text that was written, but the number that it finds is only near the one
that was written, unless the text is short.

## Main definitions

* `Number.Within`: two numbers are at most some units in the last place apart.
* `IsShort`: texts on which the reader of JSON texts rounds once.
-/

namespace RelTrace

/-- The number is finite and at most `k` units in the last place away from another one. -/
def Number.Within (k : ℕ) (m n : Number) : Prop :=
  m.isFinite ∧ ∃ p q, m.rank? = some p ∧ n.rank? = some q ∧ (p - q).natAbs ≤ k * spacing q.natAbs

/-- The digits of the text and its power of ten are doubles themselves. -/
def IsShort (text : String) : Prop :=
  ∃ negative d, Decimal.read? text.toList = some (negative, d) ∧ d.coefficient ≤ 2 ^ 53 ∧
    d.exponent.natAbs ≤ 22

namespace Json

variable {m m' : Magnitude} {d : Decimal}

/-- The one decimal that becomes too large is not the shortest for its double. -/
theorem pointed_shortest_ne_refused (hpos : 0 < m.quanta) :
    (m.shortest .toEven).pointed ≠ refused := by
  intro heq
  have hsize : (m.shortest .toEven).pointed.size? = some m := by
    rw [Decimal.size?_congr (Decimal.value_pointed _), Magnitude.size?_shortest hpos]
  have hlargest : (refused.size?.map fun m => (m.shortest .toEven).pointed) ≠ some refused := by
    decide +kernel
  rw [heq] at hsize
  rw [hsize, Option.map_some, heq] at hlargest
  exact hlargest rfl

/-- What is found for a numeral that was written is near what it spells. -/
theorem exists_approximate?_pointed (hpos : 0 < m.quanta) :
    ∃ m', approximate? (m.shortest .toEven).pointed = some m' ∧
      |(m'.quanta : ℤ) - m.quanta| ≤ 16 * spacing m.quanta := by
  have hsize : (m.shortest .toEven).pointed.size? = some m := by
    rw [Decimal.size?_congr (Decimal.value_pointed _), Magnitude.size?_shortest hpos]
  have hcoefficient := Decimal.coefficient_pointed_le
    (Magnitude.coefficient_shortest_le hpos .toEven)
  obtain ⟨m', hm'⟩ :=
    exists_approximate? hcoefficient (pointed_shortest_ne_refused hpos) hsize hpos
  exact ⟨m', hm', by exact_mod_cast abs_approximate?_sub_le hcoefficient hsize hpos hm'⟩

end Json

namespace Number

variable {negative : Bool} {size : Magnitude}

theorem Within.of_equal {m n : Number} (hfinite : m.isFinite) (h : m.equal n) (k : ℕ) :
    m.Within k n := by
  obtain ⟨place, hm, hn⟩ := equal_iff.mp h
  exact ⟨hfinite, place, place, hm, hn, by simp⟩

theorem within_finite {m : Magnitude} {k : ℕ}
    (h : |(m.quanta : ℤ) - size.quanta| ≤ k * spacing size.quanta) :
    (finite negative m).Within k (finite negative size) := by
  refine ⟨rfl, _, _, rfl, rfl, ?_⟩
  have hsigned : (signed negative m.quanta - signed negative size.quanta).natAbs =
      ((m.quanta : ℤ) - size.quanta).natAbs := by
    cases negative <;> simp [signed]
    omega
  rw [Int.abs_eq_natAbs] at h
  rw [hsigned, natAbs_signed]
  exact_mod_cast h

/-- The text of a finite number in JSON is read, and the number that is found is near. -/
theorem exists_decode (negative : Bool) (size : Magnitude) :
    ∃ text, (finite negative size).jsonText? = some text ∧
      (∃ m, read? text = some m ∧ m.equal (finite negative size)) ∧
      ∀ room, ∃ m, Json.decode (Value.decode room) text = .ok (.number m) ∧
        m.Within 16 (finite negative size) ∧ (IsShort text → m.equal (finite negative size)) := by
  obtain ⟨sign, n, htext, hspells, hshape⟩ := exists_jsonText? negative size
  refine ⟨_, htext, ⟨_, hspells.read?_eq, hspells.equal⟩, fun room => ?_⟩
  obtain ⟨m, hm, hbound, hnear⟩ : ∃ m, Json.approximate? n.decimal = some m ∧
      n.decimal.coefficient < Json.significandBound ∧
      (finite sign m).Within 16 (finite negative size) := by
    rcases hshape with ⟨hcoefficient, hexponent⟩ | ⟨hpos, hpointed⟩
    · have hsmall : integerBound ≤ 2 ^ 53 := by decide
      have hfits : integerBound ≤ Json.significandBound := by decide
      have hexact := Json.approximate?_eq_size? (hcoefficient.le.trans hsmall) (by simp [hexponent])
      exact ⟨size, hexact.trans hspells.size?_eq, hcoefficient.trans_le hfits,
        .of_equal rfl hspells.equal 16⟩
    · obtain ⟨m, hm, hnear⟩ := Json.exists_approximate?_pointed hpos
      have hfits : 10 ^ 17 < Json.significandBound := by decide
      have hle := Decimal.coefficient_pointed_le
        (Magnitude.coefficient_shortest_le hpos .toEven)
      obtain rfl := hspells.sign_eq hpos.ne'
      rw [hpointed]
      exact ⟨m, hm, hle.trans_lt hfits, within_finite hnear⟩
  refine ⟨_, n.decode_text_of_approximate? room hbound hm, hnear, ?_⟩
  rintro ⟨negative', d, hread, hcoefficient, hexponent⟩
  rw [String.toList_ofList, Numeral.read?_text] at hread
  obtain ⟨rfl, rfl⟩ := Prod.mk.inj (Option.some.inj hread)
  rw [Json.approximate?_eq_size? hcoefficient hexponent, hspells.size?_eq] at hm
  obtain rfl := Option.some.inj hm
  exact hspells.equal

theorem read?_plainText_of_not_isFinite {n : Number} (h : n.isFinite = false) :
    read? n.plainText = none := by
  cases n with
  | nan payload =>
    have hname : read? "NaN" = none := by decide
    exact hname
  | infinite negative => cases negative <;> decide
  | finite => cases h

end Number

/-- The text of a finite number in a table is read as an equal number, and its text in JSON spells
an equal number too. The reader of JSON texts finds a number that is at most sixteen units in the
last place away, and an equal one if the text is short. Other numbers have texts that are not
numbers. -/
theorem number_texts_read_back (n : Number) :
    (n.isFinite → (∃ m, Number.read? (Value.number n).plainText = some m ∧ m.equal n) ∧
      ∃ text, (Value.number n).toJson.compact = text ∧ (Value.number n).toJson.pretty = text ∧
        (∃ m, Number.read? text = some m ∧ m.equal n) ∧
        ∀ room, ∃ m, Json.decode (Value.decode room) text = .ok (.number m) ∧ m.Within 16 n ∧
          (IsShort text → m.equal n)) ∧
    (n.isFinite = false → Number.read? (Value.number n).plainText = none) := by
  refine ⟨fun hfinite => ?_, Number.read?_plainText_of_not_isFinite⟩
  cases n with
  | nan | infinite => cases hfinite
  | finite negative size =>
    obtain ⟨sign, numeral, hplain, hspells⟩ := Number.exists_plainText negative size
    obtain ⟨text, htext, hspelled, hdecode⟩ := Number.exists_decode negative size
    refine ⟨⟨.finite sign size, ?_, hspells.equal⟩, text, ?_, ?_, hspelled, hdecode⟩
    · rw [Value.plainText, hplain, hspells.read?_eq]
    · rw [Value.toJson, Json.compact_number, htext, Option.getD_some]
    · rw [Value.toJson, Json.pretty_number, htext, Option.getD_some]

theorem number_texts_read_back_tenth :
    let n : Number := .ofRatio true 1 10
    n.isFinite ∧ (Value.number n).toJson.pretty = "-0.1" ∧ IsShort "-0.1" ∧
      ∃ m, Json.decode (Value.decode Json.nestingBound) "-0.1" = .ok (.number m) ∧ m.equal n := by
  intro n
  have hfinite : n.isFinite := by decide +kernel
  have htext : (Value.number n).toJson.pretty = "-0.1" := by decide +kernel
  have hshort : IsShort "-0.1" := ⟨true, ⟨1, -1⟩, by decide, by decide, by decide⟩
  obtain ⟨-, text, -, hpretty, -, hdecode⟩ := (number_texts_read_back n).1 hfinite
  obtain rfl := htext.symm.trans hpretty
  obtain ⟨m, hm, -, hequal⟩ := hdecode Json.nestingBound
  exact ⟨hfinite, htext, hshort, m, hm, hequal hshort⟩

/-- Reading a JSON text can lead to a neighbour of the number that was written. -/
theorem json_text_is_read_as_neighbour :
    let n : Number := .ofInt 9000000000000001
    n.isFinite ∧ (Value.number n).toJson.pretty = "9000000000000001.0" ∧
      Json.decode (Value.decode Json.nestingBound) "9000000000000001.0" =
        .ok (.number (.ofInt 9000000000000002)) ∧
      n.equal (.ofInt 9000000000000002) = false := by
  intro n
  refine ⟨by decide +kernel, by decide +kernel, ?_, by decide +kernel⟩
  -- The digits 90000000000000010 are rounded to a double before they are divided by ten.
  have hscale (m : Magnitude) : Json.scale m (-1) = m.div? (Json.powerOfTen 1) :=
    Json.scale_neg one_ne_zero (by decide) m
  have hround : ((Magnitude.round? (90000000000000010 * unit) 1).bind fun m =>
      m.div? (Json.powerOfTen 1)) = Magnitude.round? (9000000000000002 * unit) 1 := by
    decide +kernel
  obtain ⟨m, hm, -⟩ := Json.exists_round?_eq (c := 9000000000000002) (by decide)
  let numeral : Numeral := ⟨Nat.toDigits 10 9000000000000001, ['0'], [], 0, isDigits_toDigits _,
    Nat.toDigits_ne_nil, leading_toDigits _, isDigits_toDigits 0, rfl⟩
  have hdecimal : numeral.decimal = ⟨90000000000000010, -1⟩ := by decide +kernel
  have htext : "9000000000000001.0" = String.ofList (withSign false numeral.text) := by
    decide +kernel
  have happroximate : Json.approximate? numeral.decimal = some m := by
    simp only [hdecimal, Json.approximate?, hscale, hround, hm]
  have hneighbour : Number.ofInt 9000000000000002 = .finite false m := by
    have hsize : (9000000000000002 : ℤ).natAbs = 9000000000000002 := rfl
    rw [Number.ofInt, Number.ofRatio, hsize, hm]
    rfl
  rw [htext, hneighbour]
  exact numeral.decode_text_of_approximate? _ (by rw [hdecimal]; decide) happroximate

end RelTrace
