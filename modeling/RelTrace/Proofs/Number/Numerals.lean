import RelTrace.Number.Text
import RelTrace.Proofs.Number.Equality
import RelTrace.Proofs.Number.Shortest

/-!
# Numerals

Every text of a finite number is made of the same parts: digits without a leading zero, perhaps more
digits after a point, and perhaps an exponent. Wherever the point stands, such a numeral spells the
decimal that it was written for, so a number is read from its text in a table.

## Main definitions

* `Numeral`: the parts of a text of a number.
* `Numeral.text`, `Numeral.decimal`: the text, and the decimal that it spells.
-/

namespace RelTrace

/-- The parts of a text of a number. -/
structure Numeral where
  whole : List Char
  fraction : List Char
  exponent : List Char
  /-- What the exponent says. -/
  power : ℤ
  isDigits_whole : IsDigits whole
  whole_ne_nil : whole ≠ []
  /-- A leading zero stands alone. -/
  leading : whole = ['0'] ∨ whole.head? ≠ some '0'
  isDigits_fraction : IsDigits fraction
  readExponent?_eq : Decimal.readExponent? exponent = some power

namespace Numeral

variable {negative : Bool}

/-- The digits after the point, if there are any. -/
def pointed (fraction : List Char) : List Char := if fraction = [] then [] else '.' :: fraction

/-- The text of the parts. -/
def text (n : Numeral) : List Char := n.whole ++ pointed n.fraction ++ n.exponent

/-- The decimal that the parts spell. -/
def decimal (n : Numeral) : Decimal :=
  ⟨digitsValue (n.whole ++ n.fraction), n.power - n.fraction.length⟩

theorem exists_sign (negative : Bool) :
    ∃ sign, IsSign sign ∧ (takeSign sign).1 = negative ∧
      ∀ cs, withSign negative cs = sign ++ cs := by
  cases negative with
  | false => exact ⟨[], .inl rfl, rfl, fun _ => rfl⟩
  | true => exact ⟨['-'], .inr (.inr rfl), rfl, fun _ => rfl⟩

/-- A numeral is read as the decimal that it spells. -/
theorem read?_text (negative : Bool) (n : Numeral) :
    Decimal.read? (withSign negative n.text) = some (negative, n.decimal) := by
  obtain ⟨sign, hsign, hnegative, hwith⟩ := exists_sign negative
  have hexponent : IsExponent n.exponent :=
    Decimal.isSome_readExponent?_iff.mp (by rw [n.readExponent?_eq]; rfl)
  rw [hwith, text, decimal, pointed]
  split
  · next hnil =>
    have hread := Decimal.read?_whole hsign n.isDigits_whole n.whole_ne_nil hexponent
    rw [n.readExponent?_eq] at hread
    simpa [hnil, hnegative, List.append_assoc] using hread
  · have hread := Decimal.read?_point hsign n.isDigits_whole n.isDigits_fraction
      (.inl n.whole_ne_nil) hexponent
    rw [n.readExponent?_eq] at hread
    simpa [hnegative, List.append_assoc] using hread

end Numeral

theorem head?_toDigits_ne {k : ℕ} (h : k ≠ 0) : (Nat.toDigits 10 k).head? ≠ some '0' := by
  induction k using Nat.strongRecOn with
  | ind k ih =>
    by_cases hk : k < 10
    · rw [Nat.toDigits_of_lt_base hk]
      have hdigits : ∀ k < 10, k ≠ 0 → [Nat.digitChar k].head? ≠ some '0' := by decide
      exact hdigits k hk h
    · rw [Nat.toDigits_of_base_le (by decide) (by omega), List.head?_append_of_ne_nil _
        Nat.toDigits_ne_nil]
      exact ih (k / 10) (by omega) (by omega)

theorem leading_toDigits (k : ℕ) :
    Nat.toDigits 10 k = ['0'] ∨ (Nat.toDigits 10 k).head? ≠ some '0' := by
  by_cases hk : k = 0
  · subst hk
    exact .inl rfl
  · exact .inr (head?_toDigits_ne hk)

theorem isDigits_nil : IsDigits [] := by simp [IsDigits]

theorem IsDigits.take {ds : List Char} (h : IsDigits ds) (k : ℕ) : IsDigits (ds.take k) :=
  fun c hc => h c (List.mem_of_mem_take hc)

theorem IsDigits.drop {ds : List Char} (h : IsDigits ds) (k : ℕ) : IsDigits (ds.drop k) :=
  fun c hc => h c (List.mem_of_mem_drop hc)

namespace Numeral

/-- The digits of a natural number. -/
def ofNat (k : ℕ) : Numeral where
  whole := Nat.toDigits 10 k
  fraction := []
  exponent := []
  power := 0
  isDigits_whole := isDigits_toDigits k
  whole_ne_nil := Nat.toDigits_ne_nil
  leading := leading_toDigits k
  isDigits_fraction := isDigits_nil
  readExponent?_eq := rfl

@[simp] theorem text_ofNat (k : ℕ) : (ofNat k).text = Nat.toDigits 10 k := by
  simp [text, ofNat, pointed]

@[simp] theorem decimal_ofNat (k : ℕ) : (ofNat k).decimal = ⟨k, 0⟩ := by
  simp [decimal, ofNat]

end Numeral

namespace Decimal

variable {d : Decimal}

/-- The same decimal without a positive exponent. -/
def positional (d : Decimal) : Decimal :=
  if 0 ≤ d.exponent then ⟨d.coefficient * 10 ^ d.exponent.toNat, 0⟩ else d

theorem value_positional (d : Decimal) : d.positional.value = d.value := by
  unfold positional
  split
  · next h =>
    obtain ⟨k, hk⟩ := Int.eq_ofNat_of_zero_le h
    simp [value, hk]
  · rfl

theorem isDigits_digits (d : Decimal) : IsDigits d.digits := isDigits_toDigits d.coefficient

theorem digitsValue_digits (d : Decimal) : digitsValue d.digits = d.coefficient :=
  digitsValue_toDigits d.coefficient

theorem digits_ne_nil (d : Decimal) : d.digits ≠ [] := Nat.toDigits_ne_nil

theorem head?_digits_ne (h : d.coefficient ≠ 0) : d.digits.head? ≠ some '0' := head?_toDigits_ne h

/-- The digits and the zeros behind them. -/
theorem exists_whole (h : d.coefficient ≠ 0) (fraction : List Char)
    (hfraction : IsDigits fraction) :
    ∃ n : Numeral, n.text = d.digits ++ List.replicate d.exponent.toNat '0' ++
        Numeral.pointed fraction ∧
      n.decimal = ⟨d.coefficient * 10 ^ d.exponent.toNat * 10 ^ fraction.length +
        digitsValue fraction, -fraction.length⟩ := by
  refine ⟨⟨d.digits ++ List.replicate d.exponent.toNat '0', fraction, [], 0,
    d.isDigits_digits.append (isDigits_replicate_zero _), by simp [d.digits_ne_nil], .inr ?_,
    hfraction, rfl⟩, by simp [Numeral.text], ?_⟩
  · rw [List.head?_append_of_ne_nil _ d.digits_ne_nil]
    exact head?_digits_ne h
  · rw [Numeral.decimal, Decimal.mk.injEq]
    refine ⟨?_, by simp⟩
    rw [digitsValue_append, digitsValue_append, digitsValue_replicate_zero, digitsValue_digits,
      List.length_replicate]
    ring

/-- The text without an exponent. -/
theorem exists_plain (h : d.coefficient ≠ 0) :
    ∃ n : Numeral, n.text = d.plain ∧ n.decimal = d.positional := by
  unfold plain positional
  dsimp only
  split
  · obtain ⟨n, htext, hdecimal⟩ := exists_whole h [] isDigits_nil
    exact ⟨n, by simpa [Numeral.pointed] using htext, by simpa [digitsValue] using hdecimal⟩
  split
  · next hneg hplaces =>
    have hfraction : d.digits.drop (d.digits.length - (-d.exponent).toNat) ≠ [] := by
      simp only [ne_eq, List.drop_eq_nil_iff]
      omega
    refine ⟨⟨d.digits.take (d.digits.length - (-d.exponent).toNat),
      d.digits.drop (d.digits.length - (-d.exponent).toNat), [], 0, d.isDigits_digits.take _,
      ?_, .inr ?_, d.isDigits_digits.drop _, rfl⟩, ?_, ?_⟩
    · simp only [ne_eq, List.take_eq_nil_iff, d.digits_ne_nil, or_false]
      omega
    · rw [List.head?_take, if_neg (by omega)]
      exact head?_digits_ne h
    · simp [Numeral.text, Numeral.pointed, hfraction]
    · simp only [Numeral.decimal, List.take_append_drop, digitsValue_digits, List.length_drop]
      congr 1
      omega
  · next hneg hplaces =>
    refine ⟨⟨['0'], List.replicate ((-d.exponent).toNat - d.digits.length) '0' ++ d.digits, [], 0,
      isDigits_toDigits 0, by simp, .inl rfl,
      (isDigits_replicate_zero _).append d.isDigits_digits, rfl⟩, ?_, ?_⟩
    · simp [Numeral.text, Numeral.pointed, d.digits_ne_nil]
    · have hvalue : digitsValue (['0'] ++
          (List.replicate ((-d.exponent).toNat - d.digits.length) '0' ++ d.digits)) =
            d.coefficient := by
        rw [digitsValue_append, digitsValue_append, digitsValue_replicate_zero, digitsValue_digits]
        simp [digitsValue]
      simp only [Numeral.decimal, hvalue, List.length_append, List.length_replicate]
      congr 1
      omega

/-- The text with an exponent. -/
theorem exists_scientific (h : d.coefficient ≠ 0) :
    ∃ n : Numeral, n.text = d.scientific ∧ n.decimal = d := by
  obtain ⟨sign, hsign, hmark, hnegative⟩ : ∃ sign, IsSign [sign] ∧
      (if d.leadingPlace < 0 then '-' else '+') = sign ∧
      (takeSign [sign]).1 = decide (d.leadingPlace < 0) := by
    split
    · next hneg => exact ⟨'-', .inr (.inr rfl), rfl, (decide_eq_true hneg).symm⟩
    · next hpos => exact ⟨'+', .inr (.inl rfl), rfl, (decide_eq_false hpos).symm⟩
  have hexponent := readExponent?_eq (.inl rfl) hsign
    (isDigits_toDigits d.leadingPlace.natAbs) Nat.toDigits_ne_nil
  rw [digitsValue_toDigits, hnegative, signed_natAbs] at hexponent
  refine ⟨⟨d.digits.take 1, d.digits.drop 1, _, _, d.isDigits_digits.take 1, ?_, .inr ?_,
    d.isDigits_digits.drop 1, hexponent⟩, ?_, ?_⟩
  · simp [d.digits_ne_nil]
  · rw [List.head?_take, if_neg (by decide)]
    exact head?_digits_ne h
  · simp [Numeral.text, Numeral.pointed, scientific, hmark]
  · have hlength : 0 < d.digits.length := List.length_pos_of_ne_nil d.digits_ne_nil
    simp only [Numeral.decimal, List.take_append_drop, digitsValue_digits, List.length_drop,
      leadingPlace]
    congr 1
    omega

/-- The decimal that the text in JSON spells: integers get a digit after the point. -/
def pointed (d : Decimal) : Decimal :=
  if d.leadingPlace < -5 ∨ 15 < d.leadingPlace then d
  else if 0 ≤ d.exponent then ⟨d.coefficient * 10 ^ (d.exponent.toNat + 1), -1⟩
  else d

theorem value_pointed (d : Decimal) : d.pointed.value = d.value := by
  unfold pointed
  split
  · rfl
  split
  · next h =>
    obtain ⟨k, hk⟩ := Int.eq_ofNat_of_zero_le h
    simp [value, hk, pow_succ, mul_assoc]
  · rfl

theorem coefficient_pointed_le (h : d.coefficient ≤ 10 ^ 17) : d.pointed.coefficient ≤ 10 ^ 17 := by
  unfold pointed
  split
  · exact h
  split
  · next hplace hexponent =>
    have hlength : d.digits.length + (d.exponent.toNat + 1) ≤ 17 := by
      simp only [leadingPlace] at hplace
      omega
    calc
      d.coefficient * 10 ^ (d.exponent.toNat + 1) ≤
          10 ^ d.digits.length * 10 ^ (d.exponent.toNat + 1) :=
        Nat.mul_le_mul_right _ d.coefficient_lt.le
      _ = 10 ^ (d.digits.length + (d.exponent.toNat + 1)) := (pow_add ..).symm
      _ ≤ 10 ^ 17 := pow_le_pow_right₀ (by decide) hlength
  · exact h

/-- The text in JSON. -/
theorem exists_pointed (h : d.coefficient ≠ 0) :
    ∃ n : Numeral, n.decimal = d.pointed ∧ n.text =
      if d.leadingPlace < -5 ∨ 15 < d.leadingPlace then d.scientific
      else if 0 ≤ d.exponent then d.plain ++ ['.', '0'] else d.plain := by
  unfold pointed
  split
  · obtain ⟨n, htext, hdecimal⟩ := exists_scientific h
    exact ⟨n, hdecimal, htext⟩
  split
  · next hexponent =>
    obtain ⟨n, htext, hdecimal⟩ := exists_whole h ['0'] (isDigits_toDigits 0)
    refine ⟨n, ?_, ?_⟩
    · rw [hdecimal]
      simp [digitsValue, pow_succ, Nat.mul_assoc]
    · simpa [plain, hexponent, Numeral.pointed] using htext
  · next hexponent =>
    obtain ⟨n, htext, hdecimal⟩ := exists_plain h
    exact ⟨n, by rw [hdecimal, positional, if_neg hexponent], htext⟩

end Decimal

variable {negative : Bool} {size : Magnitude}

/-- Numbers without a fraction are their own nearest doubles. -/
theorem Decimal.size?_ofNat {k : ℕ} (h : size.quanta = k * unit) :
    Decimal.size? ⟨k, 0⟩ = some size := by
  refine Eq.trans (Magnitude.round?_congr (Decimal.ten_pow_pos _) Nat.one_pos ?_) size.round?_quanta
  simp [h]

/-- A numeral and a sign before it spell a finite number. The sign of zero is not written. -/
structure Numeral.Spells (n : Numeral) (sign negative : Bool) (size : Magnitude) : Prop where
  sign_eq : size.quanta ≠ 0 → sign = negative
  size?_eq : n.decimal.size? = some size

theorem Numeral.Spells.equal {n : Numeral} {sign : Bool} (h : n.Spells sign negative size) :
    (Number.finite sign size).equal (.finite negative size) := by
  rw [Number.equal_iff]
  refine ⟨signed negative size.quanta, ?_, rfl⟩
  by_cases hzero : size.quanta = 0
  · simp [Number.rank?, signed, hzero]
  · rw [h.sign_eq hzero]
    rfl

/-- What a numeral spells is what is read. -/
theorem Numeral.Spells.read?_eq {n : Numeral} {sign : Bool} (h : n.Spells sign negative size) :
    Number.read? (String.ofList (withSign sign n.text)) = some (.finite sign size) := by
  have hnumber : n.decimal.toNumber sign = .finite sign size := by
    rw [Decimal.toNumber_eq, h.size?_eq, Number.ofMagnitude?]
  rw [Number.read?, String.toList_ofList, read?_text, Option.map_some]
  exact congrArg some hnumber

namespace Number

theorem exists_of_integer? {i : ℤ} (h : (finite negative size).integer? = some i) :
    ∃ k, size.quanta = k * unit ∧ k < integerBound ∧ i = signed negative k := by
  simp only [integer?, Magnitude.whole?] at h
  split at h
  · next k hk =>
    split at hk
    · next hwhole =>
      split at h
      · next hbound =>
        obtain rfl := Option.some.inj hk
        exact ⟨_, (Nat.div_mul_cancel (Nat.dvd_of_mod_eq_zero hwhole)).symm, hbound,
          (Option.some.inj h).symm⟩
      · cases h
    · cases hk
  · cases h

theorem quanta_pos_of_integer?_eq_none (h : (finite negative size).integer? = none) :
    0 < size.quanta := by
  by_contra hzero
  rw [integer?_of_quanta_eq_zero (by omega)] at h
  cases h

/-- The text of an integer. -/
theorem exists_integerText {i : ℤ} (h : (finite negative size).integer? = some i) :
    ∃ (sign : Bool) (n : Numeral), integerText i = withSign sign n.text ∧
      n.Spells sign negative size ∧ n.decimal = ⟨i.natAbs, 0⟩ := by
  obtain ⟨k, hquanta, -, rfl⟩ := exists_of_integer? h
  refine ⟨decide (signed negative k < 0), .ofNat k, ?_, ⟨fun hne => ?_, ?_⟩, ?_⟩
  · rw [integerText, natAbs_signed, Numeral.text_ofNat]
  · have hk : k ≠ 0 := by
      rintro rfl
      exact hne (by rw [hquanta, Nat.zero_mul])
    cases negative <;> simp [signed]
    omega
  · rw [Numeral.decimal_ofNat, Decimal.size?_ofNat hquanta]
  · rw [Numeral.decimal_ofNat, natAbs_signed]

/-- The text of a finite number in a table. -/
theorem exists_plainText (negative : Bool) (size : Magnitude) :
    ∃ (sign : Bool) (n : Numeral),
      (finite negative size).plainText = String.ofList (withSign sign n.text) ∧
      n.Spells sign negative size := by
  unfold plainText
  split
  · next i hi =>
    obtain ⟨sign, n, htext, hspells, -⟩ := exists_integerText hi
    exact ⟨sign, n, by rw [htext], hspells⟩
  · next hnone =>
    have hpos := quanta_pos_of_integer?_eq_none hnone
    obtain ⟨n, htext, hdecimal⟩ :=
      Decimal.exists_plain (Magnitude.coefficient_shortest_ne_zero hpos .up)
    refine ⟨negative, n, by rw [htext], fun _ => rfl, ?_⟩
    rw [hdecimal, Decimal.size?_congr (Decimal.value_positional _), Magnitude.size?_shortest hpos]

/-- The text of a finite number in JSON. -/
theorem exists_jsonText? (negative : Bool) (size : Magnitude) :
    ∃ (sign : Bool) (n : Numeral),
      (finite negative size).jsonText? = some (String.ofList (withSign sign n.text)) ∧
      n.Spells sign negative size ∧
      (n.decimal.coefficient < integerBound ∧ n.decimal.exponent = 0 ∨
        0 < size.quanta ∧ n.decimal = (size.shortest .toEven).pointed) := by
  unfold jsonText?
  split
  · next i hi =>
    obtain ⟨sign, n, htext, hspells, hdecimal⟩ := exists_integerText hi
    refine ⟨sign, n, by rw [htext], hspells, .inl ?_⟩
    obtain ⟨k, -, hbound, rfl⟩ := exists_of_integer? hi
    rw [hdecimal, natAbs_signed]
    exact ⟨hbound, rfl⟩
  · next hnone =>
    have hpos := quanta_pos_of_integer?_eq_none hnone
    obtain ⟨n, hdecimal, htext⟩ :=
      Decimal.exists_pointed (Magnitude.coefficient_shortest_ne_zero hpos .toEven)
    refine ⟨negative, n, by rw [htext], ⟨fun _ => rfl, ?_⟩, .inr ⟨hpos, hdecimal⟩⟩
    rw [hdecimal, Decimal.size?_congr (Decimal.value_pointed _), Magnitude.size?_shortest hpos]

end Number

end RelTrace
