import Mathlib.Algebra.Order.Ring.Nat
import Mathlib.Tactic.Ring
import RelTrace.Number.Shortest

/-!
# Rounding to doubles

A quotient is rounded on the grid of doubles around it. Every quotient in the interval of a
magnitude is rounded to that magnitude: above the magnitude the grid stays as it is up to the next
one, and below it the grid is the same or twice as fine, where a coarser grid starts.

## Main definitions

* `roundDiv`: the natural number nearest to a quotient.
* `IsNearest`: what makes a natural number the nearest one.
* `gapBelow`: the distance to the double below.
-/

namespace RelTrace

variable {num den t q f j : Nat}

/-- The counts of quanta in the number one and behind the largest double are powers of two. -/
theorem exists_unit_eq_pow :
    ∃ k n, unit = Nat.pow 2 k ∧ limit = Nat.pow 2 n ∧ k = 1074 ∧ n = k + 1024 := by
  delta unit limit
  exact ⟨_, _, rfl, rfl, rfl, rfl⟩

/-- The natural number nearest to a quotient; the middle goes to the even neighbour. -/
def roundDiv (num den : Nat) : Nat :=
  if den < 2 * (num % den) || (den == 2 * (num % den) && num / den % 2 == 1) then num / den + 1
  else num / den

/-- No natural number is nearer to the quotient, and in the middle the number is even. -/
structure IsNearest (num den t : Nat) : Prop where
  le_num : 2 * (t * den) ≤ 2 * num + den
  num_le : 2 * num ≤ 2 * (t * den) + den
  even_of_tie : 2 * (t * den) = 2 * num + den ∨ 2 * num = 2 * (t * den) + den → t % 2 = 0

theorem roundQuanta_eq_roundDiv (num den : Nat) :
    roundQuanta num den =
      roundDiv num (den * spacing (num / den)) * spacing (num / den) := rfl

theorem isNearest_roundDiv (hden : 0 < den) : IsNearest num den (roundDiv num den) := by
  have hrest : num % den < den := Nat.mod_lt num hden
  have hnum : num / den * den + num % den = num := Nat.div_add_mod' num den
  have hsucc : (num / den + 1) * den = num / den * den + den := Nat.succ_mul _ _
  unfold roundDiv
  split
  · next hup =>
    simp only [Bool.or_eq_true, decide_eq_true_eq, Bool.and_eq_true, beq_iff_eq] at hup
    constructor <;> omega
  · next hdown =>
    simp only [Bool.or_eq_true, decide_eq_true_eq, Bool.and_eq_true, beq_iff_eq] at hdown
    constructor <;> omega

theorem IsNearest.le_of_le {num' u : Nat} (hden : 0 < den) (ht : IsNearest num den t)
    (hu : IsNearest num' den u) (hle : num ≤ num') : t ≤ u := by
  by_contra hlt
  have hstep : (u + 1) * den ≤ t * den := Nat.mul_le_mul_right den (by omega)
  have hsucc : (u + 1) * den = u * den + den := Nat.succ_mul _ _
  obtain ⟨hlow, -, heven⟩ := ht
  obtain ⟨-, hhigh, heven'⟩ := hu
  -- All bounds are met with equality, so the numbers are neighbours, and both are even.
  have htu : t = u + 1 := Nat.eq_of_mul_eq_mul_right hden (by omega)
  have := heven (.inl (by omega))
  have := heven' (.inr (by omega))
  omega

theorem roundDiv_eq_of_isNearest (hden : 0 < den) (h : IsNearest num den t) :
    roundDiv num den = t :=
  Nat.le_antisymm ((isNearest_roundDiv hden).le_of_le hden h le_rfl)
    (h.le_of_le hden (isNearest_roundDiv hden) le_rfl)

/-! ## Grids -/

/-- The counts of quanta on which doubles are `2 ^ j` apart. -/
def InGrid (j f : Nat) : Prop := (j = 0 ∨ 2 ^ 52 * 2 ^ j ≤ f) ∧ f < 2 ^ 53 * 2 ^ j

theorem exists_inGrid (f : Nat) : ∃ j, InGrid j f := by
  refine ⟨f.log2 - 52, ?_, ?_⟩
  · by_cases hlog : f.log2 ≤ 52
    · exact .inl (Nat.sub_eq_zero_of_le hlog)
    · have hpos : f ≠ 0 := by
        rintro rfl
        exact hlog (Nat.zero_le 52)
      right
      rw [← pow_add, show 52 + (f.log2 - 52) = f.log2 by omega]
      exact Nat.log2_self_le hpos
  · have hlt : f < 2 ^ (f.log2 + 1) := Nat.lt_log2_self
    calc
      f < 2 ^ (f.log2 + 1) := hlt
      _ ≤ 2 ^ (53 + (f.log2 - 52)) := Nat.pow_le_pow_right (by decide) (by omega)
      _ = 2 ^ 53 * 2 ^ (f.log2 - 52) := pow_add 2 53 _

theorem InGrid.spacing_eq (h : InGrid j f) : spacing f = 2 ^ j := by
  obtain ⟨hlow, hhigh⟩ := h
  have hlog : f.log2 - 52 = j := by
    rcases Nat.eq_zero_or_pos f with rfl | hpos
    · have : 0 < 2 ^ j := Nat.two_pow_pos j
      obtain rfl : j = 0 := hlow.resolve_right (by omega)
      decide
    · have hupper : f.log2 < 53 + j := by
        rwa [Nat.log2_lt hpos.ne', pow_add]
      rcases hlow with rfl | hlow
      · omega
      · have : 52 + j ≤ f.log2 := by
          rwa [Nat.le_log2 hpos.ne', pow_add]
        omega
  rw [spacing, hlog]
  rfl

/-- Above a magnitude the grid stays the same up to the next one. -/
theorem spacing_above (hq : spacing q ∣ q) (hle : q ≤ f) (hlt : f < q + spacing q) :
    spacing f = spacing q := by
  obtain ⟨j, hlow, hhigh⟩ := exists_inGrid q
  have hgrid : spacing q = 2 ^ j := InGrid.spacing_eq ⟨hlow, hhigh⟩
  rw [hgrid] at hq hlt ⊢
  have hnext : q + 2 ^ j ≤ 2 ^ 53 * 2 ^ j := by
    have := Nat.le_of_dvd (by omega) (Nat.dvd_sub (Nat.dvd_mul_left (2 ^ j) (2 ^ 53)) hq)
    omega
  exact InGrid.spacing_eq ⟨hlow.imp_right (by omega), by omega⟩

/-- A coarser grid starts at the magnitude. -/
def IsGridStart (q : Nat) : Prop := q = spacing q * Nat.pow 2 52 ∧ 1 < spacing q

instance (q : Nat) : Decidable (IsGridStart q) := inferInstanceAs (Decidable (_ ∧ _))

/-- The distance to the double below. -/
def gapBelow (q : Nat) : Nat := if IsGridStart q then spacing q / 2 else spacing q

/-- Below a magnitude the grid has one spacing down to the next double. -/
theorem spacing_below (hq : spacing q ∣ q) (hle : q ≤ f + gapBelow q) (hlt : f < q) :
    spacing f = gapBelow q := by
  obtain ⟨j, hlow, hhigh⟩ := exists_inGrid q
  have hgrid : spacing q = 2 ^ j := InGrid.spacing_eq ⟨hlow, hhigh⟩
  unfold gapBelow at *
  split at hle
  · next hstart =>
    rw [if_pos hstart]
    obtain ⟨hfirst, hcoarse⟩ := hstart
    rw [hgrid, Nat.pow_eq] at hfirst
    rw [hgrid] at hcoarse hle ⊢
    obtain ⟨i, rfl⟩ : ∃ i, j = i + 1 := Nat.exists_eq_succ_of_ne_zero (by rintro rfl; omega)
    rw [pow_succ, Nat.mul_div_cancel _ (by decide)] at hle ⊢
    rw [pow_succ] at hfirst
    have hfine : InGrid i f := ⟨.inr (by omega), by omega⟩
    exact hfine.spacing_eq
  · next hinner =>
    rw [if_neg hinner]
    rw [IsGridStart, hgrid, Nat.pow_eq] at hinner
    rw [hgrid] at hq hle ⊢
    have hsame : InGrid j f := by
      refine ⟨?_, by omega⟩
      rcases Nat.eq_zero_or_pos j with hj | hj
      · exact .inl hj
      · right
        have hcoarse : 1 < 2 ^ j := Nat.one_lt_two_pow hj.ne'
        have hfirst : 2 ^ 52 * 2 ^ j ≤ q := hlow.resolve_left hj.ne'
        have hdvd : 2 ^ j ∣ q - 2 ^ 52 * 2 ^ j := Nat.dvd_sub hq (Nat.dvd_mul_left _ _)
        have := Nat.le_of_dvd (by omega) hdvd
        omega
    exact hsame.spacing_eq

theorem two_dvd_spacing (h : 1 < spacing q) : 2 ∣ spacing q := by
  obtain ⟨j, hgrid⟩ := exists_inGrid q
  rw [hgrid.spacing_eq] at h ⊢
  exact dvd_pow_self 2 (by rintro rfl; omega)

theorem gapBelow_pos (q : Nat) : 0 < gapBelow q := by
  have hpos := spacing_pos q
  unfold gapBelow
  split
  · next hstart => exact Nat.div_pos hstart.2 (by decide)
  · exact hpos

/-- Where a coarser grid starts, the doubles below lie twice as close. -/
theorem IsGridStart.two_mul_gapBelow (h : IsGridStart q) : 2 * gapBelow q = spacing q := by
  obtain ⟨half, hhalf⟩ := two_dvd_spacing h.2
  rw [gapBelow, if_pos h, hhalf, Nat.mul_div_cancel_left _ (by decide)]

theorem IsGridStart.eq_mul_gapBelow (h : IsGridStart q) : q = 2 ^ 53 * gapBelow q := by
  have hfirst := h.1
  have hgap := h.two_mul_gapBelow
  rw [Nat.pow_eq] at hfirst
  omega

/-- Every magnitude is a multiple of the distance to the double below, and an even one if a coarser
grid starts there. -/
theorem exists_eq_mul_gapBelow (hq : spacing q ∣ q) :
    ∃ t, q = t * gapBelow q ∧ (t % 2 = 1 → gapBelow q = spacing q) := by
  by_cases hstart : IsGridStart q
  · exact ⟨2 ^ 53, hstart.eq_mul_gapBelow, fun h => absurd h (by decide)⟩
  · obtain ⟨t, ht⟩ := hq
    rw [gapBelow, if_neg hstart]
    exact ⟨t, ht.trans (Nat.mul_comm _ t), fun _ => rfl⟩

/-! ## Intervals -/

theorem even_div_spacing_iff (ht : q = t * spacing q) : q / spacing q % 2 = 0 ↔ t % 2 = 0 := by
  rw [Nat.div_eq_of_eq_mul_left (spacing_pos q) ht]

/-- The quotient is in the interval of a count of quanta: no further away than half the way to its
neighbours, and at the ends only if the significant part is even. -/
structure InInterval (num den q : Nat) : Prop where
  le_num : 2 * (q * den) ≤ 2 * num + den * gapBelow q
  num_le : 2 * num ≤ 2 * (q * den) + den * spacing q
  even_of_end : 2 * (q * den) = 2 * num + den * gapBelow q ∨
    2 * num = 2 * (q * den) + den * spacing q → q / spacing q % 2 = 0

theorem InInterval.roundQuanta_eq_of_le (h : InInterval num den q) (hden : 0 < den)
    (hq : spacing q ∣ q) (habove : q ≤ num / den) : roundQuanta num den = q := by
  obtain ⟨-, hhigh, hends⟩ := h
  have hnum : q * den ≤ num := (Nat.le_div_iff_mul_le hden).mp habove
  have hstep : 0 < den * spacing q := Nat.mul_pos hden (spacing_pos q)
  have hspacing : spacing (num / den) = spacing q := by
    refine spacing_above hq habove ((Nat.div_lt_iff_lt_mul hden).mpr ?_)
    have hnext : (q + spacing q) * den = q * den + den * spacing q := by ring
    omega
  obtain ⟨t, ht⟩ : ∃ t, q = t * spacing q := exists_eq_mul_left_of_dvd hq
  have hnearest : IsNearest num (den * spacing q) t := by
    have hprod : t * (den * spacing q) = q * den := by
      conv => rhs; rw [ht]
      ring
    refine ⟨by omega, by omega, fun htie => (even_div_spacing_iff ht).mp (hends (.inr ?_))⟩
    omega
  rw [roundQuanta_eq_roundDiv, hspacing, roundDiv_eq_of_isNearest hstep hnearest, ← ht]

theorem InInterval.roundQuanta_eq_of_lt (h : InInterval num den q) (hden : 0 < den)
    (hq : spacing q ∣ q) (hbelow : num / den < q) : roundQuanta num den = q := by
  obtain ⟨hlow, -, hends⟩ := h
  have hnum : num < q * den := (Nat.div_lt_iff_lt_mul hden).mp hbelow
  have hgap : 0 < den * gapBelow q := Nat.mul_pos hden (gapBelow_pos q)
  have hspacing : spacing (num / den) = gapBelow q := by
    refine spacing_below hq ?_ hbelow
    by_contra hfar
    have hfloor : num < (num / den + 1) * den := Nat.lt_mul_of_div_lt (Nat.lt_succ_self _) hden
    have hle : (num / den + gapBelow q + 1) * den ≤ q * den := Nat.mul_le_mul_right den (by omega)
    have hexpand : (num / den + gapBelow q + 1) * den =
        (num / den + 1) * den + den * gapBelow q := by ring
    omega
  obtain ⟨t, ht, hodd⟩ := exists_eq_mul_gapBelow hq
  have hnearest : IsNearest num (den * gapBelow q) t := by
    have hprod : t * (den * gapBelow q) = q * den := by
      conv => rhs; rw [ht]
      ring
    refine ⟨by omega, by omega, fun htie => ?_⟩
    have heven := hends (.inl (by omega))
    rcases Nat.mod_two_eq_zero_or_one t with ht' | ht'
    · exact ht'
    · rw [hodd ht'] at ht
      exact (even_div_spacing_iff ht).mp heven
  rw [roundQuanta_eq_roundDiv, hspacing, roundDiv_eq_of_isNearest hgap hnearest, ← ht]

/-- Every quotient in the interval of a double is rounded to it. -/
theorem roundQuanta_eq_of_inInterval (hden : 0 < den) (hq : spacing q ∣ q)
    (h : InInterval num den q) : roundQuanta num den = q := by
  rcases Nat.lt_or_ge (num / den) q with hbelow | habove
  · exact h.roundQuanta_eq_of_lt hden hq hbelow
  · exact h.roundQuanta_eq_of_le hden hq habove

/-- A double is rounded to itself. -/
theorem roundQuanta_mul (hden : 0 < den) (hq : spacing q ∣ q) : roundQuanta (q * den) den = q := by
  have hstep : 0 < den * spacing q := Nat.mul_pos hden (spacing_pos q)
  have hgap : 0 < den * gapBelow q := Nat.mul_pos hden (gapBelow_pos q)
  exact roundQuanta_eq_of_inInterval hden hq ⟨by omega, by omega, by omega⟩

/-! ## Laws of rounding -/

theorem roundDiv_mul_right (k : Nat) (hk : 0 < k) :
    roundDiv (num * k) (den * k) = roundDiv num den := by
  rw [roundDiv, roundDiv, Nat.mul_div_mul_right num den hk, Nat.mul_mod_mul_right]
  have hlt : den * k < 2 * (num % den * k) ↔ den < 2 * (num % den) := by
    rw [← Nat.mul_assoc, Nat.mul_lt_mul_right hk]
  have heq : den * k = 2 * (num % den * k) ↔ den = 2 * (num % den) := by
    rw [← Nat.mul_assoc, Nat.mul_left_inj hk.ne']
  simp only [Bool.or_eq_true, decide_eq_true_eq, Bool.and_eq_true, beq_iff_eq, hlt, heq]

/-- Rounding looks at nothing but the quotient. -/
theorem roundQuanta_congr {num' den' : Nat} (hden : 0 < den) (hden' : 0 < den')
    (h : num * den' = num' * den) : roundQuanta num den = roundQuanta num' den' := by
  have hscale {num den k : Nat} (hk : 0 < k) :
      roundQuanta (num * k) (den * k) = roundQuanta num den := by
    rw [roundQuanta_eq_roundDiv, roundQuanta_eq_roundDiv, Nat.mul_div_mul_right num den hk,
      Nat.mul_right_comm, roundDiv_mul_right k hk]
  calc
    roundQuanta num den = roundQuanta (num * den') (den * den') := (hscale hden').symm
    _ = roundQuanta (num' * den) (den' * den) := by rw [h, Nat.mul_comm den]
    _ = roundQuanta num' den' := hscale hden

theorem roundDiv_le_of_le (hden : 0 < den) {num' : Nat} (h : num ≤ num') :
    roundDiv num den ≤ roundDiv num' den :=
  (isNearest_roundDiv hden).le_of_le hden (isNearest_roundDiv hden) h

theorem div_le_roundDiv (num den : Nat) : num / den ≤ roundDiv num den := by
  unfold roundDiv
  split <;> omega

theorem roundDiv_le (num den : Nat) : roundDiv num den ≤ num / den + 1 := by
  unfold roundDiv
  split <;> omega

/-- Rounding keeps to the grid of the quotient, the start of the next one included. -/
theorem InGrid.roundQuanta_mem (h : InGrid j (num / den)) :
    (j = 0 ∨ 2 ^ 52 * 2 ^ j ≤ roundQuanta num den) ∧ roundQuanta num den ≤ 2 ^ 53 * 2 ^ j := by
  have hpos : 0 < 2 ^ j := Nat.two_pow_pos j
  have hfloor : num / (den * 2 ^ j) = num / den / 2 ^ j := (Nat.div_div_eq_div_mul ..).symm
  have hspacing := h.spacing_eq
  obtain ⟨hlow, hhigh⟩ := h
  rw [roundQuanta_eq_roundDiv, hspacing]
  refine ⟨hlow.imp_right fun hlow => ?_, ?_⟩
  · refine Nat.mul_le_mul_right _ (Nat.le_trans ?_ (div_le_roundDiv _ _))
    rw [hfloor]
    exact (Nat.le_div_iff_mul_le hpos).mpr hlow
  · refine Nat.mul_le_mul_right _ (Nat.le_trans (roundDiv_le _ _) ?_)
    rw [hfloor]
    exact (Nat.div_lt_iff_lt_mul hpos).mpr hhigh

theorem roundQuanta_le_of_le (hden : 0 < den) {num' : Nat} (h : num ≤ num') :
    roundQuanta num den ≤ roundQuanta num' den := by
  obtain ⟨j, hj⟩ := exists_inGrid (num / den)
  obtain ⟨i, hi⟩ := exists_inGrid (num' / den)
  have hfloor : num / den ≤ num' / den := Nat.div_le_div_right h
  rcases Nat.lt_trichotomy j i with hlt | rfl | hgt
  · calc
      roundQuanta num den ≤ 2 ^ 53 * 2 ^ j := hj.roundQuanta_mem.2
      _ = 2 ^ 52 * 2 ^ (j + 1) := by ring
      _ ≤ 2 ^ 52 * 2 ^ i := Nat.mul_le_mul_left _ (Nat.pow_le_pow_right (by decide) hlt)
      _ ≤ roundQuanta num' den := hi.roundQuanta_mem.1.resolve_left (by omega)
  · rw [roundQuanta_eq_roundDiv, roundQuanta_eq_roundDiv, hj.spacing_eq, hi.spacing_eq]
    exact Nat.mul_le_mul_right _ (roundDiv_le_of_le (Nat.mul_pos hden (Nat.two_pow_pos j)) h)
  · have hfine : 2 ^ 53 * 2 ^ i ≤ 2 ^ 52 * 2 ^ j := by
      calc
        2 ^ 53 * 2 ^ i = 2 ^ 52 * 2 ^ (i + 1) := by ring
        _ ≤ 2 ^ 52 * 2 ^ j := Nat.mul_le_mul_left _ (Nat.pow_le_pow_right (by decide) hgt)
    have hlow := hj.1.resolve_left (by omega)
    have hhigh := hi.2
    omega

/-- What is rounded is off by at most half the spacing. -/
theorem roundQuanta_near (hden : 0 < den) :
    2 * (roundQuanta num den * den) ≤ 2 * num + den * spacing (num / den) ∧
      2 * num ≤ 2 * (roundQuanta num den * den) + den * spacing (num / den) := by
  have hstep : 0 < den * spacing (num / den) := Nat.mul_pos hden (spacing_pos _)
  obtain ⟨hlow, hhigh, -⟩ : IsNearest num _ _ := isNearest_roundDiv hstep
  have hprod : roundQuanta num den * den =
      roundDiv num (den * spacing (num / den)) * (den * spacing (num / den)) := by
    rw [roundQuanta_eq_roundDiv]
    ring
  omega

/-- The spacing is at most one part in 2⁵² of what is rounded, unless it is a single quantum. -/
theorem spacing_mul_le_max (f : Nat) : spacing f * 2 ^ 52 ≤ max f (2 ^ 52) := by
  obtain ⟨j, hj⟩ := exists_inGrid f
  rw [hj.spacing_eq, Nat.mul_comm]
  rcases hj.1 with rfl | hlow
  · exact le_max_right ..
  · exact hlow.trans (le_max_left ..)

theorem le_mul_spacing (f : Nat) : f ≤ 2 ^ 53 * spacing f := by
  obtain ⟨j, hj⟩ := exists_inGrid f
  rw [hj.spacing_eq]
  exact hj.2.le

/-- Rounding does not lead to a finer grid. -/
theorem spacing_le_spacing_roundQuanta (num den : Nat) :
    spacing (num / den) ≤ spacing (roundQuanta num den) := by
  obtain ⟨j, hj⟩ := exists_inGrid (num / den)
  obtain ⟨i, hi⟩ := exists_inGrid (roundQuanta num den)
  rw [hj.spacing_eq, hi.spacing_eq]
  refine Nat.pow_le_pow_right (by decide) ?_
  rcases hj.roundQuanta_mem.1 with rfl | hlow
  · exact Nat.zero_le i
  · have hlt : 2 ^ 52 * 2 ^ j < 2 ^ 52 * 2 ^ (i + 1) := by
      calc
        2 ^ 52 * 2 ^ j ≤ roundQuanta num den := hlow
        _ < 2 ^ 53 * 2 ^ i := hi.2
        _ = 2 ^ 52 * 2 ^ (i + 1) := by ring
    have hpow : 2 ^ j < 2 ^ (i + 1) := Nat.lt_of_mul_lt_mul_left hlt
    exact Nat.le_of_lt_succ ((Nat.pow_lt_pow_iff_right (by decide)).mp hpow)

end RelTrace
