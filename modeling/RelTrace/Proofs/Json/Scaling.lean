import RelTrace.Json.Scaling
import RelTrace.Proofs.Json.Scanning

/-!
# Coefficients and powers of ten

Coefficients up to 2⁵³ and powers of ten up to 10²² are doubles, so that only the result is rounded
when such a coefficient is scaled by such a power. Other results can miss the nearest double, or be
too large although there is one. Scaling by negative powers never fails, and among the decimals with
at most seventeen digits no more than one becomes too large without need.

## Main definitions

* `Json.product?`: a coefficient times a power of ten, both rounded before.
* `Json.refused`: the decimal that becomes too large.
-/

namespace RelTrace.Json

open Magnitude

theorem pow_le_unit : 2 ^ 52 ≤ unit := by
  obtain ⟨k, -, hunit, -, hk, -⟩ := exists_unit_eq_pow
  rw [hunit, Nat.pow_eq]
  exact Nat.pow_le_pow_right two_pos (by omega)

/-- Integers up to 2⁵³ times a power of two are doubles. -/
theorem exists_round?_mul_pow {c j : ℕ} (hc : c ≤ 2 ^ 53) (hj : j ≤ 900) :
    ∃ m, round? (c * Nat.pow 2 j * unit) 1 = some m ∧ m.quanta = c * Nat.pow 2 j * unit := by
  obtain ⟨k, n, hunit, hlimit, -, hlarge⟩ := exists_unit_eq_pow
  have hgrid : c * Nat.pow 2 j * unit = c * Nat.pow 2 (j + k) := by
    rw [hunit, Nat.mul_assoc, Nat.pow_eq, Nat.pow_eq, Nat.pow_eq, ← pow_add]
  have hlt : c * Nat.pow 2 (j + k) < limit := by
    rw [hlimit, Nat.pow_eq, Nat.pow_eq]
    calc
      c * 2 ^ (j + k) ≤ 2 ^ 53 * 2 ^ (j + k) := Nat.mul_le_mul_right _ hc
      _ = 2 ^ (53 + (j + k)) := (pow_add ..).symm
      _ < 2 ^ n := Nat.pow_lt_pow_right one_lt_two (by omega)
  rw [hgrid]
  exact ⟨_, round?_quanta ⟨_, spacing_dvd_mul_pow _ hc, hlt⟩, rfl⟩

theorem exists_round?_eq {c : ℕ} (h : c ≤ 2 ^ 53) :
    ∃ m, round? (c * unit) 1 = some m ∧ m.quanta = c * unit := by
  have hone : c * Nat.pow 2 0 = c := Nat.mul_one c
  simpa only [hone] using exists_round?_mul_pow h (Nat.zero_le 900)

/-- Up to 10²² the powers of ten are doubles. -/
theorem quanta_powerOfTen {k : ℕ} (h : k ≤ 22) : (powerOfTen k).quanta = Nat.pow 10 k * unit := by
  have hodd : Nat.pow 5 k ≤ 2 ^ 53 :=
    (Nat.pow_le_pow_right (by decide) h).trans (by decide : 5 ^ 22 ≤ 2 ^ 53)
  have hten : Nat.pow 10 k = Nat.pow 5 k * Nat.pow 2 k := Nat.mul_pow 5 2 k
  obtain ⟨m, hm, hquanta⟩ := exists_round?_mul_pow hodd (h.trans (by decide : 22 ≤ 900))
  rw [← hten] at hm hquanta
  rw [powerOfTen, hm, Option.getD_some, hquanta]

theorem scale_natCast {k : ℕ} (h : k ≤ largestPower) (m : Magnitude) :
    scale m k = m.mul? (powerOfTen k) := by
  rw [scale, Int.natAbs_natCast, if_pos h, if_pos (Int.natCast_nonneg k)]

theorem scale_neg {k : ℕ} (hpos : k ≠ 0) (h : k ≤ largestPower) (m : Magnitude) :
    scale m (-k) = m.div? (powerOfTen k) := by
  rw [scale, Int.natAbs_neg, Int.natAbs_natCast, if_pos h, if_neg (by omega)]

/-- If neither the coefficient nor the power of ten is rounded, then only the result is. -/
theorem approximate?_eq_size? {d : Decimal} (hcoefficient : d.coefficient ≤ 2 ^ 53)
    (hexponent : d.exponent.natAbs ≤ 22) : approximate? d = d.size? := by
  obtain ⟨c, e⟩ := d
  dsimp only at hcoefficient hexponent
  obtain ⟨m, hround, hm⟩ := exists_round?_eq hcoefficient
  have hpower := quanta_powerOfTen hexponent
  have hlargest : e.natAbs ≤ largestPower := hexponent.trans (by decide)
  have hpos : 0 < Nat.pow 10 e.natAbs * unit := Nat.mul_pos (Decimal.ten_pow_pos _) unit_pos
  simp only [approximate?]
  rw [hround, Option.bind_some]
  rcases lt_or_ge e 0 with hneg | hnonneg
  · obtain ⟨k, rfl⟩ := Int.exists_eq_neg_ofNat hneg.le
    rw [Int.natAbs_neg, Int.natAbs_natCast] at hpower hlargest hpos
    rw [scale_neg (by omega) hlargest, div?, hpower, hm, Decimal.size?_neg]
    exact round?_congr hpos (Decimal.ten_pow_pos _) (by ring)
  · obtain ⟨k, rfl⟩ := Int.eq_ofNat_of_zero_le hnonneg
    rw [Int.natAbs_natCast] at hpower hlargest
    rw [scale_natCast hlargest, mul?, hpower, hm, Decimal.size?_natCast]
    exact round?_congr unit_pos Nat.one_pos (by ring)

/-! ## Numbers that are not too large -/

variable {m : Magnitude} {e : ℤ}

theorem ten_pow_mul_unit_le {k k' : ℕ} (h : k ≤ k') : Nat.pow 10 k * unit ≤ Nat.pow 10 k' * unit :=
  Nat.mul_le_mul_right unit (pow_le_pow_right₀ (by decide) h)

theorem round?_powerOfTen {k : ℕ} (h : k ≤ largestPower) :
    round? (Nat.pow 10 k * unit) 1 = some (powerOfTen k) := by
  have hlargest : round? (Nat.pow 10 largestPower * unit) 1 = some (powerOfTen largestPower) := by
    decide +kernel
  obtain ⟨m, hm, -⟩ := exists_round?_le Nat.one_pos Nat.one_pos
    (Nat.mul_le_mul_right 1 (ten_pow_mul_unit_le h)) hlargest
  rw [powerOfTen, hm]
  rfl

theorem powerOfTen_le {k k' : ℕ} (h : k ≤ k') (h' : k' ≤ largestPower) :
    (powerOfTen k).quanta ≤ (powerOfTen k').quanta := by
  obtain ⟨m, hm, hquanta⟩ := exists_round?_le Nat.one_pos Nat.one_pos
    (Nat.mul_le_mul_right 1 (ten_pow_mul_unit_le h)) (round?_powerOfTen h')
  rw [round?_powerOfTen (h.trans h')] at hm
  obtain rfl := Option.some.inj hm
  exact hquanta

theorem unit_le_quanta {c : ℕ} (hc : 0 < c) (h : round? (c * unit) 1 = some m) :
    unit ≤ m.quanta := by
  have hsmall : 1 ≤ 2 ^ 53 := by decide
  obtain ⟨one, hone, hquanta⟩ := exists_round?_eq hsmall
  have hunit : 1 * unit ≤ c * unit := Nat.mul_le_mul_right unit hc
  obtain ⟨m', hm', hle⟩ := exists_round?_le Nat.one_pos Nat.one_pos
    (Nat.mul_le_mul_right 1 hunit) h
  obtain rfl := Option.some.inj (hone.symm.trans hm')
  rwa [hquanta, Nat.one_mul] at hle

/-- The powers of ten that are used at once are at least one. -/
theorem unit_le_powerOfTen {k : ℕ} (h : k ≤ largestPower) : unit ≤ (powerOfTen k).quanta :=
  unit_le_quanta (Decimal.ten_pow_pos k) (round?_powerOfTen h)

/-- Dividing by powers of ten always gives a magnitude. -/
theorem exists_scale_le (m : Magnitude) (he : e < 0) :
    ∃ m', scale m e = some m' ∧ m'.quanta ≤ m.quanta := by
  have hdiv {k : ℕ} (hk : k ≤ largestPower) (m : Magnitude) :
      ∃ m', m.div? (powerOfTen k) = some m' ∧ m'.quanta ≤ m.quanta := by
    have hunit := unit_le_powerOfTen hk
    refine exists_round?_le (unit_pos.trans_le hunit) Nat.one_pos ?_ m.round?_quanta
    rw [Nat.mul_one]
    exact Nat.mul_le_mul_left _ hunit
  induction m, e using scale.induct with
  | case1 m e hsmall hnonneg => omega
  | case2 m e hsmall hneg =>
    rw [scale, if_pos hsmall, if_neg hneg]
    exact hdiv hsmall m
  | case3 m e hlarge hzero =>
    rw [scale, if_neg hlarge, if_pos hzero]
    exact ⟨m, rfl, le_rfl⟩
  | case4 m e hlarge hpos hnonneg => omega
  | case5 m e hlarge hpos hneg ih =>
    obtain ⟨m₁, hm₁, hle₁⟩ := hdiv le_rfl m
    obtain ⟨m₂, hm₂, hle₂⟩ := ih m₁ (by omega)
    rw [scale, if_neg hlarge, if_neg hpos, if_neg hneg, hm₁]
    exact ⟨m₂, hm₂, hle₂.trans hle₁⟩

/-- The first count of quanta that is rounded to infinity. -/
def overflow : ℕ := limit - Nat.pow 2 2044

theorem lt_overflow {num : ℕ} {m : Magnitude} (h : round? num 1 = some m) : num < overflow := by
  have hoverflow : round? overflow 1 = none := by decide +kernel
  by_contra hle
  obtain ⟨m', hm', -⟩ := exists_round?_le Nat.one_pos Nat.one_pos
    (Nat.mul_le_mul_right 1 (Nat.not_lt.mp hle)) h
  rw [hoverflow] at hm'
  cases hm'

theorem le_largestPower {c k : ℕ} (hc : c ≠ 0) (h : c * Nat.pow 10 k * unit < overflow) :
    k ≤ largestPower := by
  by_contra hlarge
  simp only [largestPower, not_le] at hlarge
  have hle : limit ≤ c * Nat.pow 10 k * unit := by
    rw [Nat.mul_assoc, Nat.pow_eq]
    exact (Decimal.limit_le_pow hlarge).trans (Nat.le_mul_of_pos_left _ (Nat.pos_of_ne_zero hc))
  exact absurd (h.trans_le (Nat.sub_le ..)) (Nat.not_lt.mpr hle)

/-- The product of a coefficient and a power of ten, both rounded. -/
def product? (c k : ℕ) : Option Magnitude :=
  (round? (c * unit) 1).bind fun m => m.mul? (powerOfTen k)

theorem exists_product?_of_le {c c' k k' : ℕ} (hc : c ≤ c') (hk : k ≤ k') (hk' : k' ≤ largestPower)
    (h : (product? c' k').isSome) : ∃ m, product? c k = some m := by
  obtain ⟨m', hm'⟩ := Option.isSome_iff_exists.mp h
  obtain ⟨a', ha', hproduct'⟩ := Option.bind_eq_some_iff.mp hm'
  obtain ⟨a, ha, hle⟩ := exists_round?_le Nat.one_pos Nat.one_pos
    (Nat.mul_le_mul_right 1 (Nat.mul_le_mul_right unit hc)) ha'
  rw [mul?] at hproduct'
  obtain ⟨m, hm, -⟩ := exists_round?_le unit_pos unit_pos
    (Nat.mul_le_mul_right unit (Nat.mul_le_mul hle (powerOfTen_le hk hk'))) hproduct'
  rw [product?, ha, Option.bind_some, mul?]
  exact ⟨m, hm⟩

/-- The one decimal with few digits that becomes too large though there is a nearest double. -/
def refused : Decimal := ⟨17976931348623158, 292⟩

/-- What is computed about the power of ten of the refused decimal: the overflow lies right behind
it, the decimal before it is accepted, and so is any decimal that ends in a zero, whatever rounding
its power of ten has brought in. Before a lower power all decimals with few digits are accepted. -/
theorem range_at_refused {n : ℕ} (hn : n = 292) :
    overflow ≤ (refused.coefficient + 1) * (Nat.pow 10 n * unit) ∧
      (product? (refused.coefficient - 1) n).isSome ∧
      (round? (refused.coefficient / 10 * 10 * Nat.pow 10 n * (2 ^ 53 + 1) * unit)
        (2 ^ 53)).isSome ∧
      (product? (10 ^ 17) (n - 1)).isSome := by
  subst hn
  decide +kernel

/-- Below the overflow, the leading digits are at most those of the refused decimal. -/
theorem mul_pow_le_refused {c i n : ℕ} (hn : n = 292)
    (h : c * Nat.pow 10 (i + n) * unit < overflow) : c * Nat.pow 10 i ≤ refused.coefficient := by
  have hpow : c * Nat.pow 10 (i + n) * unit = c * Nat.pow 10 i * (Nat.pow 10 n * unit) := by
    simp only [Nat.pow_eq, pow_add, Nat.mul_assoc]
  rw [hpow] at h
  have hlt := h.trans_le (range_at_refused hn).1
  exact Nat.le_of_lt_succ (lt_of_mul_lt_mul_right hlt (Nat.zero_le _))

/-- Powers of ten are rounded up by one part in 2⁵³ at most. -/
theorem mul_powerOfTen_le {k : ℕ} (h : k ≤ largestPower) :
    2 ^ 53 * (powerOfTen k).quanta ≤ (2 ^ 53 + 1) * (Nat.pow 10 k * unit) := by
  have hlarge := pow_le_unit.trans (Nat.le_mul_of_pos_left unit (Decimal.ten_pow_pos k))
  have hspacing := spacing_mul_le_max (Nat.pow 10 k * unit)
  rw [quanta_of_round? (round?_powerOfTen h)]
  generalize Nat.pow 10 k * unit = n at *
  obtain ⟨hnear, -⟩ : 2 * (roundQuanta n 1 * 1) ≤ 2 * n + 1 * spacing (n / 1) ∧ _ :=
    roundQuanta_near Nat.one_pos
  rw [max_eq_left hlarge] at hspacing
  rw [Nat.div_one] at hnear
  omega

/-- Behind a higher power of ten than that of the refused decimal there are so few digits left that
the last digit pays for the rounding. -/
theorem exists_product?_of_lt {c k n : ℕ} (hn : n = 292) (hlow : n < k) (hk : k ≤ largestPower)
    (h : c * Nat.pow 10 k * unit < overflow) : ∃ m, product? c k = some m := by
  obtain ⟨i, rfl⟩ : ∃ i, k = i + 1 + n := ⟨k - (n + 1), by omega⟩
  obtain ⟨-, -, hlargest, -⟩ := range_at_refused hn
  obtain ⟨m', hm'⟩ := Option.isSome_iff_exists.mp hlargest
  have hlead : c * Nat.pow 10 i * 10 ≤ refused.coefficient := by
    rw [Nat.mul_assoc]
    exact mul_pow_le_refused hn h
  have hfew : refused.coefficient / 10 ≤ 2 ^ 53 := by decide
  have hc : c ≤ c * Nat.pow 10 i := Nat.le_mul_of_pos_right c (Decimal.ten_pow_pos i)
  obtain ⟨a, ha, hquanta⟩ := exists_round?_eq (show c ≤ 2 ^ 53 by omega)
  have hle : c * unit * (powerOfTen (i + 1 + n)).quanta * 2 ^ 53 ≤
      refused.coefficient / 10 * 10 * Nat.pow 10 n * (2 ^ 53 + 1) * unit * unit := by
    have hpow : c * Nat.pow 10 (i + 1 + n) = c * Nat.pow 10 i * 10 * Nat.pow 10 n := by
      simp only [Nat.pow_eq, pow_add, pow_one, Nat.mul_assoc]
    calc
      c * unit * (powerOfTen (i + 1 + n)).quanta * 2 ^ 53 =
          c * unit * (2 ^ 53 * (powerOfTen (i + 1 + n)).quanta) := by ring
      _ ≤ c * unit * ((2 ^ 53 + 1) * (Nat.pow 10 (i + 1 + n) * unit)) :=
        Nat.mul_le_mul_left _ (mul_powerOfTen_le hk)
      _ = c * Nat.pow 10 (i + 1 + n) * ((2 ^ 53 + 1) * unit * unit) := by ring
      _ = c * Nat.pow 10 i * 10 * Nat.pow 10 n * ((2 ^ 53 + 1) * unit * unit) := by rw [hpow]
      _ ≤ refused.coefficient / 10 * 10 * Nat.pow 10 n * ((2 ^ 53 + 1) * unit * unit) :=
        Nat.mul_le_mul_right _ (Nat.mul_le_mul_right _ (by omega))
      _ = refused.coefficient / 10 * 10 * Nat.pow 10 n * (2 ^ 53 + 1) * unit * unit := by ring
  obtain ⟨m, hm, -⟩ := exists_round?_le unit_pos (by decide) hle hm'
  rw [product?, ha, Option.bind_some, mul?, hquanta]
  exact ⟨m, hm⟩

theorem exists_product? {c k : ℕ} (hc : c ≤ 10 ^ 17) (hk : k ≤ largestPower)
    (hrefused : (⟨c, k⟩ : Decimal) ≠ refused) (h : c * Nat.pow 10 k * unit < overflow) :
    ∃ m, product? c k = some m := by
  obtain ⟨n, hn⟩ : ∃ n, n = 292 := ⟨_, rfl⟩
  have hlargest : n ≤ largestPower := by rw [hn]; decide
  obtain ⟨-, hbefore, -, hlower⟩ := range_at_refused hn
  rcases Nat.lt_trichotomy k n with hlow | rfl | hhigh
  · exact exists_product?_of_le hc (Nat.le_sub_one_of_lt hlow) (by omega) hlower
  · have hle := mul_pow_le_refused (i := 0) hn (by rwa [Nat.zero_add])
    rw [Nat.pow_eq, pow_zero, Nat.mul_one] at hle
    have hne : c ≠ refused.coefficient := fun hc => hrefused (by rw [hc, hn]; rfl)
    exact exists_product?_of_le (Nat.le_sub_one_of_lt (lt_of_le_of_ne hle hne)) le_rfl hk hbefore
  · exact exists_product?_of_lt hn hhigh hk h

/-- A decimal with few digits that is near a double is not too large for the reader. -/
theorem exists_approximate? {d : Decimal} (hcoefficient : d.coefficient ≤ 10 ^ 17)
    (hrefused : d ≠ refused) (hsize : d.size? = some m) (hpos : 0 < m.quanta) :
    ∃ m', approximate? d = some m' := by
  have hne := Decimal.coefficient_ne_zero_of_size? hsize hpos
  obtain ⟨c, e⟩ := d
  dsimp only at hcoefficient hne
  rcases lt_or_ge e 0 with hneg | hnonneg
  · obtain ⟨k, hk, hle⟩ : ∃ k ≤ largestPower, c ≤ Nat.pow 10 k := ⟨17, by decide, hcoefficient⟩
    obtain ⟨a, ha, -⟩ := exists_round?_le Nat.one_pos Nat.one_pos
      (Nat.mul_le_mul_right 1 (Nat.mul_le_mul_right unit hle)) (round?_powerOfTen hk)
    obtain ⟨m', hm', -⟩ := exists_scale_le a hneg
    exact ⟨m', by rw [approximate?, ha, Option.bind_some, hm']⟩
  · obtain ⟨k, rfl⟩ := Int.eq_ofNat_of_zero_le hnonneg
    rw [Decimal.size?_natCast] at hsize
    have hoverflow : c * Nat.pow 10 k * unit < overflow := lt_overflow hsize
    have hk := le_largestPower hne hoverflow
    obtain ⟨m', hm'⟩ := exists_product? hcoefficient hk hrefused hoverflow
    refine ⟨m', Eq.trans ?_ hm'⟩
    simp only [approximate?, product?, scale_natCast hk]

end RelTrace.Json
