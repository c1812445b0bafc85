import RelTrace.Number.Magnitude

/-!
# Numbers

Numbers are doubles: a sign and a magnitude, an infinity, or not a number. Two zeros are equal and a
number that is not one equals nothing.

## Main definitions

* `Number.rank?`: the place of a number on the line, which decides equality and order.
* `Number.equal`, `Number.compare?`.
* `Number.ofInt`: the double nearest to an integer.
* `Number.integer?`: the integer that a number is, if it is one of moderate size.
-/

namespace RelTrace

/-- A double. Values that are not numbers are told apart by their payload only. -/
inductive Number where
  | nan (payload : Nat)
  | infinite (negative : Bool)
  | finite (negative : Bool) (size : Magnitude)
deriving DecidableEq

/-- A natural number with a sign. -/
def signed (negative : Bool) (n : Nat) : Int := if negative then -(n : Int) else n

namespace Number

/-- Zero. -/
def zero : Number := finite false .zero

instance : Inhabited Number := ⟨zero⟩

/-- The place on the line in quanta; the infinities stand just outside the finite numbers. -/
def rank? : Number → Option Int
  | nan _ => none
  | infinite negative => some (signed negative limit)
  | finite negative size => some (signed negative size.quanta)

/-- Equality of numbers: the zeros are equal, and what is not a number equals nothing. -/
def equal (a b : Number) : Bool :=
  match a.rank?, b.rank? with
  | some x, some y => x == y
  | _, _ => false

/-- The order of two numbers, unless one of them is not a number. -/
def compare? (a b : Number) : Option Ordering :=
  match a.rank?, b.rank? with
  | some x, some y => some (compare x y)
  | _, _ => none

/-- The same number with the sign of zero forgotten. -/
def unsignedZero : Number → Number
  | finite negative size => if size.quanta = 0 then zero else finite negative size
  | n => n

/-- Whether this is neither infinite nor a value that is not a number. -/
def isFinite : Number → Bool
  | finite _ _ => true
  | _ => false

/-- A rounded magnitude with a sign; beyond the largest double there is only infinity. -/
def ofMagnitude? (negative : Bool) : Option Magnitude → Number
  | some size => finite negative size
  | none => infinite negative

/-- The double nearest to a quotient. -/
def ofRatio (negative : Bool) (num den : Nat) : Number :=
  ofMagnitude? negative (Magnitude.round? (num * unit) den)

/-- The double nearest to an integer. -/
def ofInt (i : Int) : Number := ofRatio (i < 0) i.natAbs 1

/-- Integers from here on are treated as inexact. -/
def integerBound : Nat := 9 * Nat.pow 10 15

/-- The integer that the number is, if it is one and below the bound. -/
def integer? : Number → Option Int
  | finite negative size =>
    match size.whole? with
    | some n => if n < integerBound then some (signed negative n) else none
    | none => none
  | _ => none

end Number

end RelTrace
