import RelTrace.Number.Basic

/-!
# Decimal spellings

A decimal spelling is an optional sign, digits with at most one point among them, and an optional
exponent. It is read as the double nearest to what it says. The spellings of infinities and of
values that are not numbers are not decimal.

## Main definitions

* `Decimal`: a coefficient and a power of ten.
* `Decimal.read?`: the decimal of a spelling.
* `Number.read?`: the double of a spelling.
-/

namespace RelTrace

/-- The decimal fraction `coefficient · 10 ^ exponent`. -/
structure Decimal where
  coefficient : Nat
  exponent : Int
deriving DecidableEq

/-- The value of a run of decimal digits. -/
def digitsValue (ds : List Char) : Nat := ds.foldl (fun n c => 10 * n + (c.toNat - 48)) 0

/-- Takes off an optional sign and says whether it is a minus. -/
def takeSign : List Char → Bool × List Char
  | '+' :: cs => (false, cs)
  | '-' :: cs => (true, cs)
  | cs => (false, cs)

namespace Decimal

/-- Digits of the decimal writing of the coefficient. -/
def digits (d : Decimal) : List Char := Nat.toDigits 10 d.coefficient

/-- The exponent that the end of a spelling gives; no exponent is the exponent zero. -/
def readExponent? : List Char → Option Int
  | [] => some 0
  | c :: cs =>
    let (negative, ds) := takeSign cs
    if (c = 'e' ∨ c = 'E') ∧ ds ≠ [] ∧ ds.all Char.isDigit then
      some (signed negative (digitsValue ds))
    else none

/-- The decimal of a spelling, with `true` for a leading minus. -/
def read? (cs : List Char) : Option (Bool × Decimal) :=
  let (negative, body) := takeSign cs
  let whole := body.takeWhile Char.isDigit
  let (fraction, tail) :=
    match body.dropWhile Char.isDigit with
    | '.' :: rest => (rest.takeWhile Char.isDigit, rest.dropWhile Char.isDigit)
    | rest => ([], rest)
  if whole = [] ∧ fraction = [] then none
  else
    (readExponent? tail).map fun e =>
      (negative, ⟨digitsValue (whole ++ fraction), e - fraction.length⟩)

/-- The double nearest to a decimal. Decimals far outside the range of doubles are settled by their
leading digit, so that no huge power of ten is formed. -/
def toNumber (negative : Bool) (d : Decimal) : Number :=
  if d.coefficient = 0 then .finite negative .zero
  else if 310 < d.exponent then .infinite negative
  else if d.exponent + d.digits.length < -330 then .finite negative .zero
  else .ofRatio negative (d.coefficient * Nat.pow 10 d.exponent.toNat)
      (Nat.pow 10 (-d.exponent).toNat)

end Decimal

/-- The double of a decimal spelling. -/
def Number.read? (s : String) : Option Number :=
  (Decimal.read? s.toList).map fun (negative, d) => d.toNumber negative

end RelTrace
