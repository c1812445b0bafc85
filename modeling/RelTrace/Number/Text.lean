import RelTrace.Number.Shortest

/-!
# Texts of numbers

A number is written in two ways. Both write integers of moderate size without a fraction and all
other finite numbers with the shortest digits that read back; they differ in where the point stands
and in how they write what is not finite.

## Main definitions

* `Number.plainText`: digits only, for tables.
* `Number.jsonText?`: with an exponent where the number is very large or very small, for JSON.
-/

namespace RelTrace

/-- Digits around a point, without an exponent. -/
def Decimal.plain (d : Decimal) : List Char :=
  let ds := d.digits
  let places := (-d.exponent).toNat
  if 0 ≤ d.exponent then ds ++ List.replicate d.exponent.toNat '0'
  else if places < ds.length then
    ds.take (ds.length - places) ++ '.' :: ds.drop (ds.length - places)
  else '0' :: '.' :: (List.replicate (places - ds.length) '0' ++ ds)

/-- The power of ten of the leading digit. -/
def Decimal.leadingPlace (d : Decimal) : Int := d.digits.length - 1 + d.exponent

/-- One digit, a point, the other digits and an exponent with its sign. -/
def Decimal.scientific (d : Decimal) : List Char :=
  let fraction := d.digits.drop 1
  let e := d.leadingPlace
  d.digits.take 1 ++ (if fraction = [] then [] else '.' :: fraction) ++
    'e' :: (if e < 0 then '-' else '+') :: Nat.toDigits 10 e.natAbs

/-- A minus in front of a negative number. -/
def withSign (negative : Bool) (cs : List Char) : List Char := if negative then '-' :: cs else cs

/-- The decimal digits of an integer. -/
def integerText (i : Int) : List Char := withSign (i < 0) (Nat.toDigits 10 i.natAbs)

namespace Number

/-- The text of a number in tables; ties between shortest digits go up. -/
def plainText (n : Number) : String :=
  match n.integer? with
  | some i => String.ofList (integerText i)
  | none =>
    match n with
    | nan _ => "NaN"
    | infinite negative => String.ofList (withSign negative ['i', 'n', 'f'])
    | finite negative size => String.ofList (withSign negative (size.shortest .up).plain)

/-- The JSON text of a finite number. Exponents are written above 10¹⁵ and below 10⁻⁵, and ties
between shortest digits go to the even digit. -/
def jsonText? (n : Number) : Option String :=
  match n.integer? with
  | some i => some (String.ofList (integerText i))
  | none =>
    match n with
    | finite negative size =>
      let d := size.shortest .toEven
      let body :=
        if d.leadingPlace < -5 ∨ 15 < d.leadingPlace then d.scientific
        else if 0 ≤ d.exponent then d.plain ++ ['.', '0']
        else d.plain
      some (String.ofList (withSign negative body))
    | _ => none

end Number

end RelTrace
