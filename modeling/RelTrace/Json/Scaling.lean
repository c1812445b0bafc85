import RelTrace.Number.Decimal

/-!
# Numbers of JSON texts

The number of a JSON text is found in double precision throughout: the leading digits that fit 64
bits are rounded to a double, which is then multiplied or divided by a rounded power of ten. The
result is exact for short numbers and otherwise near the number written.

## Main definitions

* `Json.readNumber?`: the number of the digits before and after the point and an exponent.
-/

namespace RelTrace.Json

/-- The largest significand that is gathered. -/
def significandBound : Nat := Nat.pow 2 64

/-- Appends digits to a significand as long as it stays small, and counts the digits left over. -/
def gather (significand : Nat) : List Char → Nat × Nat
  | [] => (significand, 0)
  | d :: ds =>
    let longer := 10 * significand + (d.toNat - 48)
    if longer < significandBound then gather longer ds else (significand, ds.length + 1)

/-- The double nearest to a power of ten. -/
def powerOfTen (n : Nat) : Magnitude := (Magnitude.round? (Nat.pow 10 n * unit) 1).getD .zero

/-- The largest power of ten that is used at once. -/
def largestPower : Nat := 308

/-- A magnitude times a power of ten, each operation rounded; nothing if it becomes too large. -/
def scale (m : Magnitude) (e : Int) : Option Magnitude :=
  if e.natAbs ≤ largestPower then
    if 0 ≤ e then m.mul? (powerOfTen e.natAbs) else m.div? (powerOfTen e.natAbs)
  else if m.quanta = 0 then some m
  else if 0 ≤ e then none
  else (m.div? (powerOfTen largestPower)).bind fun m => scale m (e + largestPower)
termination_by e.natAbs
decreasing_by simp only [largestPower] at *; omega

/-- The number with the given digits before and after the point, unless it is too large. -/
def readNumber? (negative : Bool) (whole fraction : List Char) (exponent : Int) : Option Number :=
  let (leading, dropped) := gather 0 whole
  let (significand, ignored) := gather leading fraction
  let shift : Int := dropped - (fraction.length - ignored : Nat)
  (Magnitude.round? (significand * unit) 1).bind fun m =>
    (scale m (exponent + shift)).map (.finite negative)

end RelTrace.Json
