import Mathlib.Tactic.Linarith
import Mathlib.Tactic.Positivity
import RelTrace.Proofs.Number.Decimals

/-!
# Shortest digits

The shortest digits of a magnitude lie in its interval, so they are read as the magnitude. They are
at most seventeen: a grid with that many digits is finer than the interval, and the nearer one of
the two points around the magnitude lies in it.

## Main definitions

* `Magnitude.value`: a magnitude as a rational number.
* `Magnitude.gridFloor`: the last point of a grid that is not above a magnitude.
-/

namespace RelTrace

theorem ten_zpow_eq_div (e : ℤ) :
    (10 : ℚ) ^ e = ((Nat.pow 10 e.toNat : ℕ) : ℚ) / ((Nat.pow 10 (-e).toNat : ℕ) : ℚ) := by
  have hone := Decimal.value_eq_div ⟨1, e⟩
  simpa [Decimal.value] using hone

theorem ten_zpow_sub (i k : ℕ) :
    (10 : ℚ) ^ ((i : ℤ) - (k : ℤ)) = ((10 ^ i : ℕ) : ℚ) / ((Nat.pow 10 k : ℕ) : ℚ) := by
  rw [zpow_sub₀ (by norm_num), zpow_natCast, zpow_natCast, Nat.pow_eq, Nat.cast_pow, Nat.cast_pow,
    Nat.cast_ofNat]

namespace Decimal

variable {d : Decimal}

/-- The digits of a coefficient end in the zeros that are counted from behind. -/
theorem exists_digits_eq_append (d : Decimal) :
    ∃ ds, d.digits = ds ++ List.replicate (d.digits.reverse.takeWhile (· == '0')).length '0' := by
  have hzeros : d.digits.reverse.takeWhile (· == '0') =
      List.replicate (d.digits.reverse.takeWhile (· == '0')).length '0' := by
    refine List.eq_replicate_length.mpr fun c hc => ?_
    simpa using List.all_eq_true.mp List.all_takeWhile c hc
  refine ⟨(d.digits.reverse.dropWhile (· == '0')).reverse, ?_⟩
  calc
    d.digits = (d.digits.reverse.takeWhile (· == '0') ++
        d.digits.reverse.dropWhile (· == '0')).reverse := by
      rw [List.takeWhile_append_dropWhile, List.reverse_reverse]
    _ = _ := by
      rw [List.reverse_append]
      conv => lhs; rw [hzeros, List.reverse_replicate]

theorem value_trimmed (d : Decimal) : d.trimmed.value = d.value := by
  obtain ⟨ds, hds⟩ := d.exists_digits_eq_append
  unfold trimmed
  generalize (d.digits.reverse.takeWhile (· == '0')).length = zeros at hds
  dsimp only
  split
  · rfl
  · have hcoefficient : d.coefficient = 10 ^ zeros * digitsValue ds := by
      have hdigits := digitsValue_toDigits d.coefficient
      rw [← digits, hds, digitsValue_append, digitsValue_replicate_zero, List.length_replicate,
        Nat.add_zero] at hdigits
      exact hdigits.symm
    have hquotient : d.coefficient / Nat.pow 10 zeros = digitsValue ds := by
      rw [hcoefficient]
      exact Nat.mul_div_cancel_left _ (ten_pow_pos zeros)
    rw [value, value, hquotient, hcoefficient, zpow_add₀ (by norm_num), zpow_natCast]
    push_cast
    ring

theorem coefficient_trimmed_le (d : Decimal) : d.trimmed.coefficient ≤ d.coefficient := by
  unfold trimmed
  dsimp only
  split
  · exact le_rfl
  · exact Nat.div_le_self ..

end Decimal

namespace Magnitude

variable {m : Magnitude} {d : Decimal} {tie : Tie} {e : ℤ}

theorem low_eq (m : Magnitude) : m.low = 4 * m.quanta - 2 * gapBelow m.quanta := by
  have hlow : m.low = 4 * m.quanta -
      if IsGridStart m.quanta then spacing m.quanta else 2 * spacing m.quanta := rfl
  rw [hlow]
  split
  · next hstart => rw [hstart.two_mul_gapBelow]
  · next hinner => rw [gapBelow, if_neg hinner]

theorem gapBelow_le (hpos : 0 < m.quanta) : gapBelow m.quanta ≤ m.quanta := by
  obtain ⟨t, ht, -⟩ := exists_eq_mul_gapBelow m.spacing_dvd
  exact Nat.le_of_dvd hpos (Dvd.intro_left t ht.symm)

theorem gapBelow_le_spacing (q : ℕ) : gapBelow q ≤ spacing q := by
  unfold gapBelow
  split
  · exact Nat.div_le_self ..
  · exact le_rfl

theorem low_mul (hpos : 0 < m.quanta) (den : ℕ) :
    m.low * den + 2 * (den * gapBelow m.quanta) = 4 * (m.quanta * den) := by
  have hsum : m.low + 2 * gapBelow m.quanta = 4 * m.quanta := by
    have hlow := m.low_eq
    have hgap := gapBelow_le hpos
    omega
  calc
    _ = (m.low + 2 * gapBelow m.quanta) * den := by ring
    _ = _ := by rw [hsum, Nat.mul_assoc]

theorem high_mul (m : Magnitude) (den : ℕ) :
    m.high * den = 4 * (m.quanta * den) + 2 * (den * spacing m.quanta) := by
  rw [high]
  ring

/-- A decimal in the interval of a magnitude is read as the magnitude. -/
theorem size?_of_admits (hpos : 0 < m.quanta) (h : m.admits d) : d.size? = some m := by
  have hinterval : InInterval (d.coefficient * Nat.pow 10 d.exponent.toNat * unit)
      (Nat.pow 10 (-d.exponent).toNat) m.quanta := by
    have hscale : 4 * d.coefficient * unit * Nat.pow 10 d.exponent.toNat =
        4 * (d.coefficient * Nat.pow 10 d.exponent.toNat * unit) := by ring
    have hlow := low_mul hpos (Nat.pow 10 (-d.exponent).toNat)
    unfold admits at h
    dsimp only at h
    rw [hscale, high_mul] at h
    generalize d.coefficient * Nat.pow 10 d.exponent.toNat * unit = num at h ⊢
    generalize Nat.pow 10 (-d.exponent).toNat = den at h hlow ⊢
    split at h
    · next hclosed =>
      rw [Bool.and_eq_true, decide_eq_true_eq, decide_eq_true_eq] at h
      exact ⟨by omega, by omega, fun _ => by simpa [closed] using hclosed⟩
    · rw [Bool.and_eq_true, decide_eq_true_eq, decide_eq_true_eq] at h
      exact ⟨by omega, by omega, by omega⟩
  have hround := roundQuanta_eq_of_inInterval (Decimal.ten_pow_pos _) m.spacing_dvd hinterval
  simp only [Decimal.size?, round?, hround, m.lt_limit, dite_true]

/-- What is nearer to the magnitude than half the gap below it lies in its interval. -/
theorem admits_of_near (hpos : 0 < m.quanta) {c : ℕ}
    (hle : 2 * (m.quanta * Nat.pow 10 (-e).toNat) <
      2 * (c * (unit * Nat.pow 10 e.toNat)) + Nat.pow 10 (-e).toNat * gapBelow m.quanta)
    (hge : 2 * (c * (unit * Nat.pow 10 e.toNat)) <
      2 * (m.quanta * Nat.pow 10 (-e).toNat) + Nat.pow 10 (-e).toNat * gapBelow m.quanta) :
    m.admits ⟨c, e⟩ := by
  have hlow := low_mul hpos (Nat.pow 10 (-e).toNat)
  have hhigh := m.high_mul (Nat.pow 10 (-e).toNat)
  have hgap : Nat.pow 10 (-e).toNat * gapBelow m.quanta ≤
      Nat.pow 10 (-e).toNat * spacing m.quanta := Nat.mul_le_mul_left _ (gapBelow_le_spacing _)
  have hscale : 4 * c * unit * Nat.pow 10 e.toNat = 4 * (c * (unit * Nat.pow 10 e.toNat)) := by ring
  unfold admits
  dsimp only
  rw [hscale]
  split <;> rw [Bool.and_eq_true, decide_eq_true_eq, decide_eq_true_eq] <;> omega

/-- The last point of a grid that is not above the magnitude. -/
def gridFloor (m : Magnitude) (e : ℤ) : ℕ :=
  m.quanta * Nat.pow 10 (-e).toNat / (unit * Nat.pow 10 e.toNat)

/-- The point of a grid that is chosen is one of the two around the magnitude, and it lies in the
interval; there is none if neither does. -/
theorem onGrid?_cases (m : Magnitude) (tie : Tie) (e : ℤ) :
    (∃ d, m.onGrid? tie e = some d ∧ m.admits d ∧
      (d = ⟨m.gridFloor e, e⟩ ∨ d = ⟨m.gridFloor e + 1, e⟩)) ∨
    (m.onGrid? tie e = none ∧ m.admits ⟨m.gridFloor e, e⟩ = false ∧
      m.admits ⟨m.gridFloor e + 1, e⟩ = false) := by
  unfold onGrid?
  dsimp only
  rw [← gridFloor]
  cases hbelow : m.admits ⟨m.gridFloor e, e⟩ <;>
    cases habove : m.admits ⟨m.gridFloor e + 1, e⟩ <;> dsimp only
  · exact .inr ⟨rfl, rfl, rfl⟩
  · exact .inl ⟨_, rfl, habove, .inr rfl⟩
  · exact .inl ⟨_, rfl, hbelow, .inl rfl⟩
  · left
    split
    · exact ⟨_, rfl, hbelow, .inl rfl⟩
    · exact ⟨_, rfl, habove, .inr rfl⟩
    · split
      · exact ⟨_, rfl, hbelow, .inl rfl⟩
      · exact ⟨_, rfl, habove, .inr rfl⟩

/-- A grid that is finer than the gap below a magnitude has a point in its interval. -/
theorem exists_onGrid? (hpos : 0 < m.quanta) (tie : Tie)
    (hfine : unit * Nat.pow 10 e.toNat < Nat.pow 10 (-e).toNat * gapBelow m.quanta) :
    ∃ d, m.onGrid? tie e = some d := by
  rcases m.onGrid?_cases tie e with ⟨d, hd, -, -⟩ | ⟨-, hbelow, habove⟩
  · exact ⟨d, hd⟩
  exfalso
  have hstep : 0 < unit * Nat.pow 10 e.toNat := Nat.mul_pos unit_pos (Decimal.ten_pow_pos _)
  have hfloor := Nat.div_mul_le_self (m.quanta * Nat.pow 10 (-e).toNat) (unit * Nat.pow 10 e.toNat)
  have hceil := Nat.lt_mul_of_div_lt (Nat.lt_add_one
    (m.quanta * Nat.pow 10 (-e).toNat / (unit * Nat.pow 10 e.toNat))) hstep
  rw [← gridFloor] at hfloor hceil
  have hnext : (m.gridFloor e + 1) * (unit * Nat.pow 10 e.toNat) =
      m.gridFloor e * (unit * Nat.pow 10 e.toNat) + unit * Nat.pow 10 e.toNat := Nat.succ_mul _ _
  -- One of the two points is at most half a step of the grid away.
  have hside := Nat.lt_or_ge (2 * (m.quanta * Nat.pow 10 (-e).toNat))
    (2 * (m.gridFloor e * (unit * Nat.pow 10 e.toNat)) + unit * Nat.pow 10 e.toNat)
  rcases hside with hnear | hnear
  · exact Bool.eq_false_iff.mp hbelow (admits_of_near hpos (by omega) (by omega))
  · exact Bool.eq_false_iff.mp habove (admits_of_near hpos (by omega) (by omega))

/-! ## Seventeen digits -/

/-- The magnitude as a rational number. -/
def value (m : Magnitude) : ℚ := m.quanta / unit

theorem unit_pos_rat : (0 : ℚ) < unit := by exact_mod_cast unit_pos

/-- A magnitude lies between the power of ten of its leading digit and the next one. -/
theorem leadingPlace_bounds (hpos : 0 < m.quanta) :
    (10 : ℚ) ^ m.leadingPlace ≤ m.value ∧ m.value < (10 : ℚ) ^ (m.leadingPlace + 1) := by
  obtain ⟨offset, hoffset⟩ : ∃ offset : ℕ, offset = 324 := ⟨_, rfl⟩
  obtain ⟨n, hn⟩ : ∃ n, n = m.quanta * Nat.pow 10 offset / unit := ⟨_, rfl⟩
  obtain ⟨k, hk⟩ : ∃ k, (Nat.toDigits 10 n).length = k + 1 :=
    Nat.exists_eq_succ_of_ne_zero Nat.length_toDigits_pos.ne'
  have hplace : m.leadingPlace = (k : ℤ) - (offset : ℤ) := by
    rw [leadingPlace, ← hoffset, ← hn, hk]
    omega
  have hdouble : 2 * unit ≤ 10 ^ offset := Decimal.two_mul_unit_le_pow hoffset.ge
  have hunit : unit ≤ Nat.pow 10 offset := by
    rw [Nat.pow_eq]
    exact (Nat.le_mul_of_pos_left unit Nat.two_pos).trans hdouble
  have hone : 0 < n := by
    rw [hn, Nat.div_pos_iff]
    exact ⟨unit_pos, hunit.trans (Nat.le_mul_of_pos_left _ hpos)⟩
  obtain ⟨hlow, hhigh⟩ := pow_length_toDigits hone hk
  have hden : (0 : ℚ) < ((Nat.pow 10 offset : ℕ) : ℚ) := by exact_mod_cast unit_pos.trans_le hunit
  rw [hn, Nat.le_div_iff_mul_le unit_pos] at hlow
  rw [hn, Nat.div_lt_iff_lt_mul unit_pos] at hhigh
  constructor
  · rw [hplace, ten_zpow_sub, value, div_le_div_iff₀ hden unit_pos_rat]
    exact_mod_cast hlow
  · rw [hplace, sub_add_eq_add_sub, ← Nat.cast_succ, ten_zpow_sub, value,
      div_lt_div_iff₀ unit_pos_rat hden]
    exact_mod_cast hhigh

theorem quanta_le_mul_gapBelow (m : Magnitude) : m.quanta ≤ 2 ^ 53 * gapBelow m.quanta := by
  obtain ⟨j, hlow, hhigh⟩ := exists_inGrid m.quanta
  have hspacing : spacing m.quanta = 2 ^ j := InGrid.spacing_eq ⟨hlow, hhigh⟩
  by_cases hstart : IsGridStart m.quanta
  · exact hstart.eq_mul_gapBelow.le
  · rw [gapBelow, if_neg hstart, hspacing]
    exact hhigh.le

theorem finer_than_gap (hpos : 0 < m.quanta) (he : e ≤ m.leadingPlace - 16) :
    unit * Nat.pow 10 e.toNat < Nat.pow 10 (-e).toNat * gapBelow m.quanta := by
  have hgrid : (10 : ℚ) ^ e * 10 ^ 16 ≤ m.value := by
    calc
      (10 : ℚ) ^ e * 10 ^ 16 = 10 ^ (e + 16) := by
        rw [zpow_add₀ (by norm_num)]
        norm_cast
      _ ≤ 10 ^ m.leadingPlace := zpow_le_zpow_right₀ (by norm_num) (by omega)
      _ ≤ m.value := (leadingPlace_bounds hpos).1
  have hgap : m.value * unit ≤ 2 ^ 53 * gapBelow m.quanta := by
    rw [value, div_mul_cancel₀ _ unit_pos_rat.ne']
    exact_mod_cast m.quanta_le_mul_gapBelow
  have hstep : (unit : ℚ) * 10 ^ e < gapBelow m.quanta := by
    have hpos' : (0 : ℚ) < gapBelow m.quanta := by exact_mod_cast gapBelow_pos m.quanta
    have hscaled := mul_le_mul_of_nonneg_right hgrid unit_pos_rat.le
    linarith
  have hden : (0 : ℚ) < ((Nat.pow 10 (-e).toNat : ℕ) : ℚ) := by
    exact_mod_cast Decimal.ten_pow_pos _
  rw [ten_zpow_eq_div, ← mul_div_assoc, div_lt_iff₀ hden, mul_comm (gapBelow m.quanta : ℚ)] at hstep
  exact_mod_cast hstep

theorem gridFloor_lt (hpos : 0 < m.quanta) (i : ℕ) :
    m.gridFloor (m.leadingPlace + 1 - i) < 10 ^ i := by
  obtain ⟨e, he⟩ : ∃ e, e = m.leadingPlace + 1 - i := ⟨_, rfl⟩
  have hstep : 0 < unit * Nat.pow 10 e.toNat := Nat.mul_pos unit_pos (Decimal.ten_pow_pos _)
  rw [← he, gridFloor, Nat.div_lt_iff_lt_mul hstep]
  have hvalue : m.value < 10 ^ i * 10 ^ e := by
    calc
      m.value < 10 ^ (m.leadingPlace + 1) := (leadingPlace_bounds hpos).2
      _ = 10 ^ i * 10 ^ e := by
        rw [← zpow_natCast, ← zpow_add₀ (by norm_num), he]
        congr 1
        omega
  have hden : (0 : ℚ) < ((Nat.pow 10 (-e).toNat : ℕ) : ℚ) := by
    exact_mod_cast Decimal.ten_pow_pos _
  rw [value, ten_zpow_eq_div, ← mul_div_assoc, div_lt_div_iff₀ unit_pos_rat hden] at hvalue
  have hcross : m.quanta * Nat.pow 10 (-e).toNat < 10 ^ i * Nat.pow 10 e.toNat * unit := by
    exact_mod_cast hvalue
  calc
    _ < 10 ^ i * Nat.pow 10 e.toNat * unit := hcross
    _ = _ := by ring

/-- The shortest digits come from one of the grids, and the last of them is fine enough. -/
theorem exists_shortest (hpos : 0 < m.quanta) (tie : Tie) :
    ∃ d, m.shortest tie = d.trimmed ∧ m.admits d ∧ d.coefficient ≤ 10 ^ 17 := by
  obtain ⟨grids, hgrids⟩ :
      ∃ grids, grids = (List.range 18).map fun (i : ℕ) => m.leadingPlace + 1 - i := ⟨_, rfl⟩
  have hshortest : m.shortest tie = ((grids.findSome? (m.onGrid? tie)).getD m.exact).trimmed := by
    rw [hgrids]
    rfl
  have hfound : (grids.findSome? (m.onGrid? tie)).isSome := by
    rw [List.findSome?_isSome_iff]
    have hlast : m.leadingPlace - 16 ∈ grids := by
      rw [hgrids]
      exact List.mem_map.mpr ⟨17, by decide, by omega⟩
    obtain ⟨d, hd⟩ := exists_onGrid? hpos tie (finer_than_gap hpos le_rfl)
    exact ⟨_, hlast, by rw [hd]; rfl⟩
  obtain ⟨d, hd⟩ := Option.isSome_iff_exists.mp hfound
  obtain ⟨e, he, honGrid⟩ := List.exists_of_findSome?_eq_some hd
  rw [hd] at hshortest
  refine ⟨d, hshortest, ?_⟩
  rw [hgrids] at he
  obtain ⟨i, hi, rfl⟩ := List.mem_map.mp he
  have hfloor : m.gridFloor (m.leadingPlace + 1 - i) < 10 ^ 17 :=
    (gridFloor_lt hpos i).trans_le (pow_le_pow_right₀ (by decide) (by
      have := List.mem_range.mp hi
      omega))
  have hpoint := m.onGrid?_cases tie (m.leadingPlace + 1 - i)
  rcases hpoint with ⟨d', hd', hadmits, hchoice⟩ | ⟨hnone, -, -⟩
  · obtain rfl := Option.some.inj (honGrid.symm.trans hd')
    refine ⟨hadmits, ?_⟩
    rcases hchoice with rfl | rfl
    · exact hfloor.le
    · exact hfloor
  · rw [hnone] at honGrid
    cases honGrid

/-- The shortest digits are read as the magnitude. -/
theorem size?_shortest (hpos : 0 < m.quanta) (tie : Tie) : (m.shortest tie).size? = some m := by
  obtain ⟨d, hd, hadmits, -⟩ := exists_shortest hpos tie
  rw [hd, Decimal.size?_congr d.value_trimmed, size?_of_admits hpos hadmits]

theorem coefficient_shortest_le (hpos : 0 < m.quanta) (tie : Tie) :
    (m.shortest tie).coefficient ≤ 10 ^ 17 := by
  obtain ⟨d, hd, -, hle⟩ := exists_shortest hpos tie
  rw [hd]
  exact d.coefficient_trimmed_le.trans hle

theorem coefficient_shortest_ne_zero (hpos : 0 < m.quanta) (tie : Tie) :
    (m.shortest tie).coefficient ≠ 0 :=
  Decimal.coefficient_ne_zero_of_size? (size?_shortest hpos tie) hpos

end Magnitude

end RelTrace
