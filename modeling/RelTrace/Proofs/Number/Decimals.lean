import Mathlib.Data.Rat.Cast.Order
import Mathlib.Tactic.FieldSimp
import Mathlib.Tactic.Ring
import RelTrace.Number.Decimal
import RelTrace.Proofs.Number.Rounding
import RelTrace.Proofs.Number.Spelling

/-!
# Values of decimals

A decimal is a rational number, and the double that it is read as is the one nearest to it. Decimals
of one value are read alike, however their digits and their exponents are chosen, and those that are
settled by their leading digit are no exception.

## Main definitions

* `Decimal.value`: the rational number.
* `Decimal.size?`: the magnitude nearest to a decimal.
-/

namespace RelTrace

variable {ds es : List Char} {n : Nat}

theorem Magnitude.quanta_of_round? {num den : ℕ} {m : Magnitude} (h : round? num den = some m) :
    m.quanta = roundQuanta num den := by
  unfold round? at h
  split at h
  · rw [← Option.some.inj h]
  · cases h

/-- Equal quotients have one nearest magnitude. -/
theorem Magnitude.round?_congr {num den num' den' : ℕ} (hden : 0 < den) (hden' : 0 < den')
    (h : num * den' = num' * den) : round? num den = round? num' den' := by
  simp only [round?, roundQuanta_congr hden hden' h]

/-- What is smaller than something that is not too large is not too large. -/
theorem Magnitude.exists_round?_le {num den num' den' : ℕ} (hden : 0 < den) (hden' : 0 < den')
    (h : num * den' ≤ num' * den) {m' : Magnitude} (hm' : round? num' den' = some m') :
    ∃ m, round? num den = some m ∧ m.quanta ≤ m'.quanta := by
  have hle : roundQuanta num den ≤ roundQuanta num' den' := by
    calc
      roundQuanta num den = roundQuanta (num * den') (den * den') :=
        roundQuanta_congr hden (Nat.mul_pos hden hden') (by ring)
      _ ≤ roundQuanta (num' * den) (den * den') :=
        roundQuanta_le_of_le (Nat.mul_pos hden hden') h
      _ = roundQuanta num' den' := roundQuanta_congr (Nat.mul_pos hden hden') hden' (by ring)
  unfold round? at hm' ⊢
  split at hm'
  · next hlt =>
    obtain rfl := Option.some.inj hm'
    exact ⟨_, dif_pos (hle.trans_lt hlt), hle⟩
  · cases hm'

/-- A magnitude is its own nearest magnitude. -/
theorem Magnitude.round?_quanta (m : Magnitude) : round? m.quanta 1 = some m := by
  have hround : roundQuanta m.quanta 1 = m.quanta := by
    simpa using roundQuanta_mul Nat.one_pos m.spacing_dvd
  simp only [round?, hround, m.lt_limit, dite_true]

/-! ## Digits -/

theorem digitsValue_eq (ds : List Char) : digitsValue ds = Nat.ofDigitChars 10 ds 0 := rfl

@[simp] theorem digitsValue_toDigits (n : Nat) : digitsValue (Nat.toDigits 10 n) = n :=
  Nat.ofDigitChars_ten_toDigits

theorem digitsValue_append (ds es : List Char) :
    digitsValue (ds ++ es) = 10 ^ es.length * digitsValue ds + digitsValue es := by
  rw [digitsValue_eq, Nat.ofDigitChars_append, Nat.ofDigitChars_eq_ofDigitChars_zero]
  rfl

theorem digitsValue_replicate_zero (n : Nat) : digitsValue (List.replicate n '0') = 0 :=
  Nat.ofDigitChars_replicate_zero

theorem isDigits_toDigits (n : Nat) : IsDigits (Nat.toDigits 10 n) := fun _ hc =>
  Nat.isDigit_of_mem_toDigits (by decide) (by decide) hc

theorem isDigits_replicate_zero (n : Nat) : IsDigits (List.replicate n '0') := by
  intro c hc
  rw [List.eq_of_mem_replicate hc]
  rfl

/-- The number of digits tells the powers of ten around a number. -/
theorem pow_length_toDigits {k : ℕ} (hpos : 0 < n) (hk : (Nat.toDigits 10 n).length = k + 1) :
    10 ^ k ≤ n ∧ n < 10 ^ (k + 1) := by
  refine ⟨?_, (Nat.length_toDigits_le_iff (by decide) (Nat.succ_pos k)).mp hk.le⟩
  rcases Nat.eq_zero_or_pos k with rfl | hk'
  · exact hpos
  · by_contra hlt
    have := (Nat.length_toDigits_le_iff (by decide) hk').mpr (Nat.not_le.mp hlt)
    omega

theorem IsDigits.append (hds : IsDigits ds) (hes : IsDigits es) : IsDigits (ds ++ es) :=
  List.forall_mem_append.mpr ⟨hds, hes⟩

namespace Decimal

variable {d d' : Decimal}

/-- The decimal as a rational number. -/
def value (d : Decimal) : ℚ := d.coefficient * 10 ^ d.exponent

/-- The magnitude nearest to a decimal, unless it is too large. -/
def size? (d : Decimal) : Option Magnitude :=
  Magnitude.round? (d.coefficient * Nat.pow 10 d.exponent.toNat * unit)
    (Nat.pow 10 (-d.exponent).toNat)

theorem ten_pow_pos (n : Nat) : 0 < Nat.pow 10 n := Nat.pow_pos (by decide)

/-- A decimal is a quotient in which one of the two powers of ten is one. -/
theorem value_eq_div (d : Decimal) :
    d.value = ((d.coefficient * Nat.pow 10 d.exponent.toNat : ℕ) : ℚ) /
      ((Nat.pow 10 (-d.exponent).toNat : ℕ) : ℚ) := by
  simp only [Nat.pow_eq, value]
  push_cast
  have hexponent : d.exponent = (d.exponent.toNat : ℤ) - ((-d.exponent).toNat : ℤ) := by omega
  conv => lhs; rw [hexponent, zpow_sub₀ (by norm_num), zpow_natCast, zpow_natCast]
  rw [mul_div_assoc]

theorem cross_eq_of_value_eq (h : d.value = d'.value) :
    d.coefficient * Nat.pow 10 d.exponent.toNat * Nat.pow 10 (-d'.exponent).toNat =
      d'.coefficient * Nat.pow 10 d'.exponent.toNat * Nat.pow 10 (-d.exponent).toNat := by
  rw [value_eq_div, value_eq_div, div_eq_div_iff] at h
  · exact_mod_cast h
  · exact_mod_cast (ten_pow_pos _).ne'
  · exact_mod_cast (ten_pow_pos _).ne'

/-- Decimals of one value have one nearest magnitude. -/
theorem size?_congr (h : d.value = d'.value) : d.size? = d'.size? := by
  refine Magnitude.round?_congr (ten_pow_pos _) (ten_pow_pos _) ?_
  rw [Nat.mul_right_comm, cross_eq_of_value_eq h, Nat.mul_right_comm]

theorem size?_natCast (c k : ℕ) :
    Decimal.size? ⟨c, k⟩ = Magnitude.round? (c * Nat.pow 10 k * unit) 1 := by
  simp [size?]

theorem size?_neg (c k : ℕ) :
    Decimal.size? ⟨c, -k⟩ = Magnitude.round? (c * unit) (Nat.pow 10 k) := by
  simp [size?]

theorem coefficient_lt (d : Decimal) : d.coefficient < 10 ^ d.digits.length :=
  (Nat.length_toDigits_le_iff (by decide) Nat.length_toDigits_pos).mp le_rfl

theorem size?_of_coefficient_eq_zero (h : d.coefficient = 0) : d.size? = some .zero := by
  have hvalue : d.value = Decimal.value ⟨0, 0⟩ := by simp [value, h]
  have hzero := size?_natCast 0 0
  simp only [Nat.zero_mul] at hzero
  rw [size?_congr hvalue]
  exact hzero.trans (Magnitude.round?_quanta .zero)

theorem coefficient_ne_zero_of_size? {m : Magnitude} (h : d.size? = some m) (hpos : 0 < m.quanta) :
    d.coefficient ≠ 0 := by
  intro hzero
  rw [size?_of_coefficient_eq_zero hzero] at h
  exact hpos.ne (congrArg Magnitude.quanta (Option.some.inj h))

theorem limit_le_pow {k : ℕ} (h : 309 ≤ k) : limit ≤ 10 ^ k * unit := by
  have hfirst : limit ≤ 10 ^ 309 * unit := by decide +kernel
  exact hfirst.trans (Nat.mul_le_mul_right unit (pow_le_pow_right₀ (by decide) h))

theorem two_mul_unit_le_pow {k : ℕ} (h : 324 ≤ k) : 2 * unit ≤ 10 ^ k := by
  have hfirst : 2 * unit ≤ 10 ^ 324 := by decide +kernel
  exact hfirst.trans (pow_le_pow_right₀ (by decide) h)

theorem spacing_limit_dvd : spacing limit ∣ limit := by
  obtain ⟨-, n, -, hlimit, -⟩ := exists_unit_eq_pow
  rw [hlimit, ← Nat.one_mul (Nat.pow 2 n)]
  exact spacing_dvd_mul_pow n (by decide)

theorem size?_of_large (hpos : d.coefficient ≠ 0) (h : 310 < d.exponent) : d.size? = none := by
  have hone : (-d.exponent).toNat = 0 := by omega
  have hlarge : limit * 1 ≤ d.coefficient * Nat.pow 10 d.exponent.toNat * unit := by
    rw [Nat.mul_one, Nat.mul_assoc, Nat.pow_eq]
    exact (limit_le_pow (by omega)).trans (Nat.le_mul_of_pos_left _ (Nat.pos_of_ne_zero hpos))
  have hround := roundQuanta_le_of_le Nat.one_pos hlarge
  rw [roundQuanta_mul Nat.one_pos spacing_limit_dvd] at hround
  rw [size?, hone, Magnitude.round?]
  exact dif_neg (Nat.not_lt.mpr hround)

theorem size?_of_small (h : d.exponent + d.digits.length < -330) : d.size? = some .zero := by
  have hone : d.exponent.toNat = 0 := by omega
  have hsmall : 2 * (d.coefficient * Nat.pow 10 d.exponent.toNat * unit) ≤
      Nat.pow 10 (-d.exponent).toNat := by
    obtain ⟨k, hk, hle⟩ : ∃ k, (-d.exponent).toNat = d.digits.length + k ∧ 330 ≤ k :=
      ⟨(-d.exponent).toNat - d.digits.length, by omega, by omega⟩
    rw [hone, hk, Nat.pow_eq, Nat.pow_eq, pow_zero, pow_add, Nat.mul_one, Nat.mul_left_comm]
    exact Nat.mul_le_mul d.coefficient_lt.le (two_mul_unit_le_pow (by omega))
  have hround : roundQuanta (d.coefficient * Nat.pow 10 d.exponent.toNat * unit)
      (Nat.pow 10 (-d.exponent).toNat) = 0 := by
    have hspacing : spacing 0 = 1 := by decide
    refine roundQuanta_eq_of_inInterval (ten_pow_pos _) (by simp) ⟨by omega, ?_, by simp⟩
    rw [hspacing]
    omega
  simp only [size?, Magnitude.round?, hround, limit_pos, dite_true, Magnitude.zero]

/-- A decimal is read as the double nearest to it. -/
theorem toNumber_eq (negative : Bool) (d : Decimal) :
    d.toNumber negative = .ofMagnitude? negative d.size? := by
  unfold toNumber
  split
  · next hzero => rw [size?_of_coefficient_eq_zero hzero, Number.ofMagnitude?]
  split
  · next hpos hlarge => rw [size?_of_large hpos hlarge, Number.ofMagnitude?]
  split
  · next hsmall => rw [size?_of_small hsmall, Number.ofMagnitude?]
  · rfl

end Decimal

end RelTrace
