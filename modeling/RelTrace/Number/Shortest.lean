import RelTrace.Number.Decimal

/-!
# Shortest digits

The decimals that read back as a given magnitude fill an interval around it. The coarsest decimal
grid with a point in that interval gives the fewest digits; of two points of that grid the nearer is
taken.

## Main definitions

* `Magnitude.admits`: a decimal lies in the interval of a magnitude.
* `Magnitude.shortest`: the decimal with the fewest digits that does.
-/

namespace RelTrace

/-- Which of two neighbours a value in the middle goes to. -/
inductive Tie where
  | up
  | toEven
deriving DecidableEq

namespace Magnitude

/-- The lower end of the interval that rounds to the magnitude, in quarters of a quantum. Below a
power of two the neighbouring magnitudes are half as far apart. -/
def low (m : Magnitude) : Nat :=
  let step := spacing m.quanta
  4 * m.quanta - if m.quanta = step * Nat.pow 2 52 ∧ 1 < step then step else 2 * step

/-- The upper end of the interval that rounds to the magnitude, in quarters of a quantum. -/
def high (m : Magnitude) : Nat := 4 * m.quanta + 2 * spacing m.quanta

/-- The ends of the interval belong to it if the significant part is even. -/
def closed (m : Magnitude) : Bool := m.quanta / spacing m.quanta % 2 == 0

/-- The decimal lies in the interval that rounds to the magnitude. -/
def admits (m : Magnitude) (d : Decimal) : Bool :=
  let num := 4 * d.coefficient * unit * Nat.pow 10 d.exponent.toNat
  let den := Nat.pow 10 (-d.exponent).toNat
  if m.closed then m.low * den ≤ num && num ≤ m.high * den
  else m.low * den < num && num < m.high * den

/-- The best point of the grid of multiples of `10 ^ e`, if one lies in the interval. -/
def onGrid? (m : Magnitude) (tie : Tie) (e : Int) : Option Decimal :=
  let num := m.quanta * Nat.pow 10 (-e).toNat
  let den := unit * Nat.pow 10 e.toNat
  let floor := num / den
  let below : Decimal := ⟨floor, e⟩
  let above : Decimal := ⟨floor + 1, e⟩
  match m.admits below, m.admits above with
  | true, true =>
    match compare (2 * num) ((2 * floor + 1) * den) with
    | .lt => some below
    | .gt => some above
    | .eq => some (if tie = .toEven ∧ floor % 2 = 0 then below else above)
  | true, false => some below
  | false, true => some above
  | false, false => none

/-- The power of ten of the leading digit. -/
def leadingPlace (m : Magnitude) : Int :=
  ((Nat.toDigits 10 (m.quanta * Nat.pow 10 324 / unit)).length : Int) - 325

/-- All digits of the magnitude. -/
def exact (m : Magnitude) : Decimal := ⟨m.quanta * Nat.pow 5 1074, -1074⟩

end Magnitude

/-- The same decimal without zeros at the end of its coefficient. -/
def Decimal.trimmed (d : Decimal) : Decimal :=
  let zeros := (d.digits.reverse.takeWhile (· == '0')).length
  if d.coefficient = 0 then d else ⟨d.coefficient / Nat.pow 10 zeros, d.exponent + zeros⟩

/-- The decimal with the fewest digits that reads back as the magnitude. -/
def Magnitude.shortest (m : Magnitude) (tie : Tie) : Decimal :=
  let coarsest := m.leadingPlace + 1
  let grids := (List.range 18).map fun (i : Nat) => coarsest - i
  ((grids.findSome? (m.onGrid? tie)).getD m.exact).trimmed

end RelTrace
