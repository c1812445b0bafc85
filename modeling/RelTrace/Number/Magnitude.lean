/-!
# Magnitudes of double precision

A finite double is, up to its sign, a multiple of one quantum, 2⁻¹⁰⁷⁴, whose significant part fits
53 bits. Sizes are counted in quanta, so equality and order of doubles are those of natural numbers
and rounding is exact arithmetic.

## Main definitions

* `spacing`: the distance between neighbouring magnitudes.
* `Magnitude`: a count of quanta that is a double.
* `Magnitude.round?`: the magnitude nearest to a quotient of natural numbers.
-/

namespace RelTrace

/-- The number of quanta in the number one. -/
def unit : Nat := Nat.pow 2 1074

/-- The first power of two that is too large for a double, in quanta. -/
def limit : Nat := Nat.pow 2 2098

theorem unit_pos : 0 < unit := by delta unit; apply Nat.two_pow_pos

theorem limit_pos : 0 < limit := by delta limit; apply Nat.two_pow_pos

/-- The distance between neighbouring magnitudes around a number of quanta: 53 bits are kept. -/
def spacing (quanta : Nat) : Nat := Nat.pow 2 (quanta.log2 - 52)

theorem spacing_pos (n : Nat) : 0 < spacing n := Nat.two_pow_pos _

theorem spacing_dvd_mul_pow {m : Nat} (k : Nat) (h : m ≤ Nat.pow 2 53) :
    spacing (m * Nat.pow 2 k) ∣ m * Nat.pow 2 k := by
  simp only [Nat.pow_eq] at h ⊢
  rcases Nat.eq_zero_or_pos m with rfl | pos
  · simp
  have nonzero : m * 2 ^ k ≠ 0 := Nat.mul_ne_zero (by omega) (by have := Nat.two_pow_pos k; omega)
  rcases Nat.lt_or_eq_of_le h with small | rfl
  · have log : (m * 2 ^ k).log2 < 53 + k := by
      rw [Nat.log2_lt nonzero, Nat.pow_add]
      exact Nat.mul_lt_mul_of_pos_right small (Nat.two_pow_pos k)
    exact Nat.dvd_mul_left_of_dvd (Nat.pow_dvd_pow 2 (by omega)) m
  · rw [← Nat.pow_add, spacing, Nat.log2_two_pow, Nat.pow_eq]
    exact Nat.pow_dvd_pow 2 (by omega)

/-- The significant part of a count of quanta is below 2⁵³. -/
theorem div_spacing_lt (n : Nat) : n / spacing n < Nat.pow 2 53 := by
  rw [Nat.div_lt_iff_lt_mul (spacing_pos n), spacing, Nat.pow_eq, Nat.pow_eq, ← Nat.pow_add]
  rcases Nat.eq_zero_or_pos n with rfl | pos
  · simp
  · exact (Nat.log2_lt (by omega)).1 (by omega)

/-- The count of quanta nearest to a quotient, on the grid of doubles around it; a quotient in the
middle goes to the even neighbour. -/
def roundQuanta (num den : Nat) : Nat :=
  let step := spacing (num / den)
  let floor := num / (den * step)
  let rest := num % (den * step)
  let up := den * step < 2 * rest || (den * step == 2 * rest && floor % 2 == 1)
  (if up then floor + 1 else floor) * step

theorem spacing_dvd_roundQuanta (num den : Nat) :
    spacing (roundQuanta num den) ∣ roundQuanta num den := by
  have bound : num / (den * spacing (num / den)) < Nat.pow 2 53 := by
    rw [← Nat.div_div_eq_div_mul]; exact div_spacing_lt _
  unfold roundQuanta
  exact spacing_dvd_mul_pow _ (by split <;> omega)

/-- The absolute value of a finite double. -/
structure Magnitude where
  quanta : Nat
  spacing_dvd : spacing quanta ∣ quanta
  lt_limit : quanta < limit
deriving DecidableEq

namespace Magnitude

/-- The number zero. -/
def zero : Magnitude := ⟨0, by simp, limit_pos⟩

/-- The double nearest to `num / den` quanta, or nothing if that is beyond the largest double. -/
def round? (num den : Nat) : Option Magnitude :=
  if h : roundQuanta num den < limit then
    some ⟨roundQuanta num den, spacing_dvd_roundQuanta num den, h⟩
  else none

/-- The product, rounded. -/
def mul? (a b : Magnitude) : Option Magnitude := round? (a.quanta * b.quanta) unit

/-- The quotient, rounded. -/
def div? (a b : Magnitude) : Option Magnitude := round? (a.quanta * unit) b.quanta

/-- The number of whole ones, if nothing is left over. -/
def whole? (a : Magnitude) : Option Nat :=
  if a.quanta % unit = 0 then some (a.quanta / unit) else none

end Magnitude

end RelTrace
