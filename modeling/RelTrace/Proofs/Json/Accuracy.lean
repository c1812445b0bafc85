import Mathlib.Data.Nat.Cast.Order.Field
import RelTrace.Proofs.Json.Scaling

/-!
# How near the numbers of JSON texts are

The number of a JSON text goes through a few roundings, of its digits, of one or two powers of ten
and of each result. Every one of them leaves a ratio near one, so all of them together are within a
few units in the last place of the nearest double.

## Main definitions

* `Json.Near`: two numbers have a ratio that some roundings leave.
-/

namespace RelTrace.Json

open Magnitude

/-- A little more than the ratio that a single rounding leaves. -/
def ratio : ℚ := 1 + 1 / 2 ^ 52

/-- The numbers are as near to each other as `k` roundings leave them. -/
def Near (k : ℕ) (x y : ℚ) : Prop := x ≤ ratio ^ k * y ∧ y ≤ ratio ^ k * x

variable {j k : ℕ} {x y z w : ℚ}

theorem ratio_pos : 0 < ratio := by norm_num [ratio]

theorem one_le_ratio : 1 ≤ ratio := by norm_num [ratio]

namespace Near

theorem mono (h : Near j x y) (hjk : j ≤ k) (hx : 0 ≤ x) (hy : 0 ≤ y) : Near k x y := by
  have hpow := pow_le_pow_right₀ one_le_ratio hjk
  exact ⟨h.1.trans (mul_le_mul_of_nonneg_right hpow hy),
    h.2.trans (mul_le_mul_of_nonneg_right hpow hx)⟩

theorem refl (x : ℚ) : Near 0 x x := by simp [Near]

theorem trans (hxy : Near j x y) (hyz : Near k y z) : Near (j + k) x z := by
  have hj : (0 : ℚ) ≤ ratio ^ j := (pow_pos ratio_pos j).le
  have hk : (0 : ℚ) ≤ ratio ^ k := (pow_pos ratio_pos k).le
  constructor
  · calc
      x ≤ ratio ^ j * y := hxy.1
      _ ≤ ratio ^ j * (ratio ^ k * z) := mul_le_mul_of_nonneg_left hyz.1 hj
      _ = ratio ^ (j + k) * z := by ring
  · calc
      z ≤ ratio ^ k * y := hyz.2
      _ ≤ ratio ^ k * (ratio ^ j * x) := mul_le_mul_of_nonneg_left hxy.2 hk
      _ = ratio ^ (j + k) * x := by ring

theorem mul (hx : 0 ≤ x) (hy : 0 ≤ y) (hz : 0 ≤ z) (hw : 0 ≤ w) (hxy : Near j x y)
    (hzw : Near k z w) : Near (j + k) (x * z) (y * w) := by
  have hk : (0 : ℚ) ≤ ratio ^ k := (pow_pos ratio_pos k).le
  have hj : (0 : ℚ) ≤ ratio ^ j := (pow_pos ratio_pos j).le
  constructor
  · calc
      x * z ≤ ratio ^ j * y * (ratio ^ k * w) := mul_le_mul hxy.1 hzw.1 hz (mul_nonneg hj hy)
      _ = ratio ^ (j + k) * (y * w) := by ring
  · calc
      y * w ≤ ratio ^ j * x * (ratio ^ k * z) := mul_le_mul hxy.2 hzw.2 hw (mul_nonneg hj hx)
      _ = ratio ^ (j + k) * (x * z) := by ring

theorem inv (hx : 0 < x) (hy : 0 < y) (h : Near k x y) : Near k x⁻¹ y⁻¹ := by
  constructor
  · rw [inv_le_iff_one_le_mul₀ hx, mul_right_comm, ← div_eq_mul_inv, one_le_div hy]
    exact h.2
  · rw [inv_le_iff_one_le_mul₀ hy, mul_right_comm, ← div_eq_mul_inv, one_le_div hx]
    exact h.1

theorem div (hx : 0 ≤ x) (hy : 0 ≤ y) (hz : 0 < z) (hw : 0 < w) (hxy : Near j x y)
    (hzw : Near k z w) : Near (j + k) (x / z) (y / w) := by
  rw [div_eq_mul_inv, div_eq_mul_inv]
  exact mul hx hy (inv_nonneg.mpr hz.le) (inv_nonneg.mpr hw.le) hxy (hzw.inv hz hw)

theorem product {p r u : ℚ} (hx : 0 ≤ x) (hy : 0 ≤ y) (hp : 0 ≤ p) (hr : 0 ≤ r) (hu : 0 < u)
    (hxy : Near j x y) (hpower : Near k p (r * u)) : Near (j + k) (x * p / u) (y * r) := by
  have hmul := mul hx hy hp (mul_nonneg hr hu.le) hxy hpower
  have hdiv := div (mul_nonneg hx hp) (mul_nonneg hy (mul_nonneg hr hu.le)) hu hu hmul (refl u)
  rwa [← mul_assoc, mul_div_cancel_right₀ _ hu.ne'] at hdiv

theorem quotient {p r u : ℚ} (hx : 0 ≤ x) (hy : 0 ≤ y) (hp : 0 < p) (hr : 0 < r) (hu : 0 < u)
    (hxy : Near j x y) (hpower : Near k p (r * u)) : Near (j + k) (x * u / p) (y / r) := by
  have hmul := mul hx hy hu.le hu.le hxy (refl u)
  have hdiv := div (mul_nonneg hx hu.le) (mul_nonneg hy hu.le) hp (mul_pos hr hu) hmul hpower
  rwa [mul_div_mul_right _ _ hu.ne'] at hdiv

end Near

/-! ## Roundings -/

variable {num den c : ℕ} {m m' : Magnitude}

/-- What is rounded is off by at most half the spacing. -/
theorem abs_sub_le_spacing (hden : 0 < den) (h : round? num den = some m) :
    |(m.quanta : ℚ) - num / den| ≤ spacing (num / den) / 2 := by
  obtain ⟨hlow, hhigh⟩ : 2 * (roundQuanta num den * den) ≤ 2 * num + den * spacing (num / den) ∧
      2 * num ≤ 2 * (roundQuanta num den * den) + den * spacing (num / den) := roundQuanta_near hden
  rw [← quanta_of_round? h] at hlow hhigh
  have hden' : (0 : ℚ) < den := by exact_mod_cast hden
  have hlow' : (2 : ℚ) * (m.quanta * den) ≤ 2 * num + den * spacing (num / den) := by
    exact_mod_cast hlow
  have hhigh' : (2 : ℚ) * num ≤ 2 * (m.quanta * den) + den * spacing (num / den) := by
    exact_mod_cast hhigh
  rw [abs_sub_le_iff, sub_le_iff_le_add, sub_le_iff_le_add, div_add_div _ _ two_ne_zero hden'.ne',
    le_div_iff₀ (mul_pos two_pos hden'), div_le_iff₀ hden']
  constructor
  · linarith
  · linarith

theorem abs_sub_le_max (hden : 0 < den) (h : round? num den = some m) :
    |(m.quanta : ℚ) - num / den| ≤ max ((num : ℚ) / den) (2 ^ 52) / 2 ^ 53 := by
  have hspacing : (spacing (num / den) : ℚ) * 2 ^ 52 ≤ max ((num : ℚ) / den) (2 ^ 52) := by
    calc
      (spacing (num / den) : ℚ) * 2 ^ 52 ≤ max ((num / den : ℕ) : ℚ) (2 ^ 52) := by
        exact_mod_cast spacing_mul_le_max (num / den)
      _ ≤ max ((num : ℚ) / den) (2 ^ 52) := max_le_max_right _ Nat.cast_div_le
  have habs := abs_sub_le_spacing hden h
  linarith

/-- Rounding a number that is not tiny leaves it near. -/
theorem near_round? (hden : 0 < den) (h : round? num den = some m)
    (hlarge : 2 ^ 52 ≤ (num : ℚ) / den) : Near 1 m.quanta (num / den) := by
  obtain ⟨hhigh, hlow⟩ := abs_sub_le_iff.mp (abs_sub_le_max hden h)
  rw [max_eq_left hlarge] at hhigh hlow
  constructor <;> norm_num [ratio] <;> linarith

/-- A number that is a little too small for that becomes a little less near. -/
theorem near_round?_of_small (hden : 0 < den) (h : round? num den = some m)
    (hlarge : 2 ^ 50 ≤ (num : ℚ) / den) : Near 3 m.quanta (num / den) := by
  have hmax : max ((num : ℚ) / den) (2 ^ 52) ≤ 4 * (num / den) := max_le (by linarith) (by linarith)
  obtain ⟨hhigh, hlow⟩ := abs_sub_le_iff.mp (abs_sub_le_max hden h)
  constructor <;> norm_num [ratio] <;> linarith

theorem near_coefficient (hc : 0 < c) (h : round? (c * unit) 1 = some m) :
    Near 1 m.quanta (c * unit) := by
  have hlarge : (2 : ℚ) ^ 52 ≤ ((c * unit : ℕ) : ℚ) / ((1 : ℕ) : ℚ) := by
    rw [Nat.cast_one, div_one]
    exact_mod_cast pow_le_unit.trans (Nat.le_mul_of_pos_left unit hc)
  have hnear := near_round? Nat.one_pos h hlarge
  rwa [Nat.cast_one, div_one, Nat.cast_mul] at hnear

theorem near_powerOfTen {k : ℕ} (h : k ≤ largestPower) :
    Near 1 (powerOfTen k).quanta (10 ^ k * unit) := by
  have hpower := near_coefficient (Decimal.ten_pow_pos k) (round?_powerOfTen h)
  rw [Nat.pow_eq] at hpower
  exact_mod_cast hpower

/-! ## Scaling -/

variable {a : Magnitude}

theorem near_product (hx : 0 ≤ x) (ha : Near j a.quanta x) (hk : k ≤ largestPower) :
    Near (j + 1) ((a.quanta * (powerOfTen k).quanta : ℕ) / (unit : ℕ)) (x * 10 ^ k) := by
  rw [Nat.cast_mul]
  exact ha.product (Nat.cast_nonneg _) hx (Nat.cast_nonneg _) (by positivity) unit_pos_rat
    (near_powerOfTen hk)

theorem near_quotient (hx : 0 ≤ x) (ha : Near j a.quanta x) (hk : k ≤ largestPower) :
    Near (j + 1) ((a.quanta * unit : ℕ) / ((powerOfTen k).quanta : ℕ)) (x / 10 ^ k) := by
  have hpower : (0 : ℚ) < (powerOfTen k).quanta := by
    exact_mod_cast unit_pos.trans_le (unit_le_powerOfTen hk)
  rw [Nat.cast_mul]
  exact ha.quotient (Nat.cast_nonneg _) hx hpower (by positivity) unit_pos_rat (near_powerOfTen hk)

theorem scale_neg_of_large (h : largestPower < k) (ha : a.quanta ≠ 0) :
    scale a (-k) = (a.div? (powerOfTen largestPower)).bind fun m =>
      scale m (-(k - largestPower : ℕ)) := by
  have hexponent : (-k : ℤ) + largestPower = -((k - largestPower : ℕ) : ℤ) := by omega
  rw [scale, Int.natAbs_neg, Int.natAbs_natCast, if_neg (by omega), if_neg ha, if_neg (by omega)]
  simp only [hexponent]

/-- The nearest magnitude is off by at most half its spacing. -/
theorem abs_size?_sub_le {d : Decimal} (h : d.size? = some m) :
    |(m.quanta : ℚ) - d.value * unit| ≤ spacing m.quanta / 2 := by
  have hquotient : d.value * unit =
      ((d.coefficient * Nat.pow 10 d.exponent.toNat * unit : ℕ) : ℚ) /
        ((Nat.pow 10 (-d.exponent).toNat : ℕ) : ℚ) := by
    rw [d.value_eq_div]
    push_cast
    ring
  have hspacing : (spacing ((d.coefficient * Nat.pow 10 d.exponent.toNat * unit) /
      (Nat.pow 10 (-d.exponent).toNat)) : ℚ) ≤ spacing m.quanta := by
    rw [quanta_of_round? h]
    exact_mod_cast spacing_le_spacing_roundQuanta _ _
  rw [hquotient]
  exact (abs_sub_le_spacing (Decimal.ten_pow_pos _) h).trans (by linarith)

/-- A number that is near enough to another one is rounded to about the same. -/
theorem abs_sub_le_of_near (hden : 0 < den) (h : round? num den = some m')
    (hnear : Near 6 (num / den) y) (hm : |(m.quanta : ℚ) - y| ≤ spacing m.quanta / 2) :
    |(m'.quanta : ℚ) - m.quanta| ≤ 16 * spacing m.quanta := by
  have hone : (1 : ℚ) ≤ spacing m.quanta := by exact_mod_cast spacing_pos m.quanta
  have hsize : (m.quanta : ℚ) ≤ 2 ^ 53 * spacing m.quanta := by
    exact_mod_cast le_mul_spacing m.quanta
  have hmax : max ((num : ℚ) / den) (2 ^ 52) ≤ num / den + 2 ^ 52 :=
    max_le_add_of_nonneg (by positivity) (by positivity)
  obtain ⟨hhigh, hlow⟩ := abs_sub_le_iff.mp (abs_sub_le_max hden h)
  obtain ⟨hhigh', hlow'⟩ := abs_sub_le_iff.mp hm
  obtain ⟨hle, hge⟩ := hnear
  norm_num [ratio] at hle hge
  rw [abs_sub_le_iff]
  constructor
  · linarith
  · linarith

theorem le_of_size? {d : Decimal} (hcoefficient : d.coefficient ≤ 10 ^ 17)
    (h : d.size? = some m) (hpos : 0 < m.quanta) : -348 ≤ d.exponent := by
  have hlength : d.digits.length ≤ 18 :=
    (Nat.length_toDigits_le_iff (by decide) (by decide)).mpr (by omega)
  by_contra hsmall
  rw [Decimal.size?_of_small (by omega)] at h
  obtain rfl := Option.some.inj h
  exact hpos.ne rfl

/-- One divided by a power of ten has more than 2⁵⁰ quanta. -/
theorem mul_powerOfTen_lt (k : ℕ) : 2 ^ 50 * (powerOfTen k).quanta < unit * unit := by
  obtain ⟨u, n, hunit, hlimit, hu, hn⟩ := exists_unit_eq_pow
  have hexponent : 50 + n = u + u := by omega
  have hlargest : 2 ^ 50 * limit = unit * unit := by
    rw [hunit, hlimit, Nat.pow_eq, Nat.pow_eq, ← pow_add, ← pow_add, hexponent]
  rw [← hlargest]
  exact mul_lt_mul_of_pos_left (powerOfTen k).lt_limit (by positivity)

/-- Very small numbers are divided twice. -/
theorem near_of_scale_twice {b : Magnitude} (hc : 0 < c) (ha : round? (c * unit) 1 = some a)
    (hb : a.div? (powerOfTen largestPower) = some b) (hk : k ≤ largestPower) :
    Near 6 ((b.quanta * unit : ℕ) / ((powerOfTen k).quanta : ℕ))
      (c * unit / 10 ^ largestPower / 10 ^ k) := by
  have hunit := unit_pos_rat
  have hpower : 0 < (powerOfTen largestPower).quanta :=
    unit_pos.trans_le (unit_le_powerOfTen le_rfl)
  have hx : (0 : ℚ) ≤ c * unit := mul_nonneg (Nat.cast_nonneg c) hunit.le
  have hfirst := near_quotient hx (near_coefficient hc ha) le_rfl
  have hlarge : (2 : ℚ) ^ 50 ≤ ((a.quanta * unit : ℕ) : ℚ) / (powerOfTen largestPower).quanta := by
    have hle := mul_powerOfTen_lt largestPower
    rw [le_div_iff₀ (by exact_mod_cast hpower)]
    exact_mod_cast hle.le.trans (Nat.mul_le_mul_right unit (unit_le_quanta hc ha))
  have hsecond := (near_round?_of_small hpower hb hlarge).trans hfirst
  exact near_quotient (div_nonneg hx (by positivity)) hsecond hk

theorem value_natCast_mul (c k : ℕ) (x : ℚ) : Decimal.value ⟨c, k⟩ * x = c * x * 10 ^ k := by
  rw [Decimal.value, zpow_natCast]
  ring

theorem value_neg_mul (c k : ℕ) (x : ℚ) : Decimal.value ⟨c, -k⟩ * x = c * x / 10 ^ k := by
  rw [Decimal.value, zpow_neg, zpow_natCast]
  ring

/-- What is rounded in the end is near to the number that was written. -/
theorem exists_round?_of_approximate? {d : Decimal} (hcoefficient : d.coefficient ≤ 10 ^ 17)
    (hm : d.size? = some m) (hpos : 0 < m.quanta) (h : approximate? d = some m') :
    ∃ num den : ℕ, 0 < den ∧ round? num den = some m' ∧ Near 6 (num / den) (d.value * unit) := by
  obtain ⟨a, hround, hscale⟩ := Option.bind_eq_some_iff.mp h
  have hlow := le_of_size? hcoefficient hm hpos
  have hc := Nat.pos_of_ne_zero (Decimal.coefficient_ne_zero_of_size? hm hpos)
  obtain ⟨c, e⟩ := d
  dsimp only at hc hround hscale hlow
  have ha := near_coefficient hc hround
  have hx : (0 : ℚ) ≤ c * unit := mul_nonneg (Nat.cast_nonneg c) unit_pos_rat.le
  have hratio (num den : ℕ) : (0 : ℚ) ≤ num / den :=
    div_nonneg (Nat.cast_nonneg num) (Nat.cast_nonneg den)
  rcases lt_or_ge e 0 with hneg | hnonneg
  · obtain ⟨k, rfl⟩ := Int.exists_eq_neg_ofNat hneg.le
    rw [value_neg_mul]
    rcases Nat.lt_or_ge largestPower k with hlarge | hk
    · rw [scale_neg_of_large hlarge (unit_pos.trans_le (unit_le_quanta hc hround)).ne'] at hscale
      obtain ⟨b, hb, hscale⟩ := Option.bind_eq_some_iff.mp hscale
      have hk : k - largestPower ≤ largestPower := by
        simp only [largestPower]
        omega
      have htwice := near_of_scale_twice hc hround hb hk
      rw [div_div, ← pow_add, Nat.add_sub_of_le hlarge.le] at htwice
      rw [scale_neg (by omega) hk, div?] at hscale
      exact ⟨_, _, unit_pos.trans_le (unit_le_powerOfTen hk), hscale, htwice⟩
    · have hquotient := near_quotient hx ha hk
      rw [scale_neg (by omega) hk, div?] at hscale
      exact ⟨_, _, unit_pos.trans_le (unit_le_powerOfTen hk), hscale,
        hquotient.mono (by decide) (hratio _ _) (div_nonneg hx (by positivity))⟩
  · obtain ⟨k, rfl⟩ := Int.eq_ofNat_of_zero_le hnonneg
    rw [Decimal.size?_natCast] at hm
    have hk := le_largestPower hc.ne' (lt_overflow hm)
    have hproduct := near_product hx ha hk
    rw [scale_natCast hk, mul?] at hscale
    rw [value_natCast_mul]
    exact ⟨_, _, unit_pos, hscale,
      hproduct.mono (by decide) (hratio _ _) (mul_nonneg hx (by positivity))⟩

/-- Rounding on the way costs at most the last four bits. -/
theorem abs_approximate?_sub_le {d : Decimal} (hcoefficient : d.coefficient ≤ 10 ^ 17)
    (hm : d.size? = some m) (hpos : 0 < m.quanta) (h : approximate? d = some m') :
    |(m'.quanta : ℚ) - m.quanta| ≤ 16 * spacing m.quanta := by
  obtain ⟨num, den, hden, hround, hnear⟩ := exists_round?_of_approximate? hcoefficient hm hpos h
  exact abs_sub_le_of_near hden hround hnear (abs_size?_sub_le hm)

end RelTrace.Json
