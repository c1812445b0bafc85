import RelTrace.Number.Text
import RelTrace.Text.Blank

/-!
# Values

A value is a truth value, a number or a text. Values are compared in two ways. Equality of values
asks for the same kind. The loose comparisons of conditions read a value as a number unless both
sides are of one kind that has a comparison of its own.

## Main definitions

* `Value.equal`: equality within a kind.
* `Value.reading?`: the number that a value reads as.
* `Value.looselyEqual`, `Value.looselyCompare?`: the comparisons of conditions.
-/

namespace RelTrace

/-- What a row holds under a name. -/
inductive Value where
  | bool (b : Bool)
  | number (n : Number)
  | text (s : String)
deriving DecidableEq

/-- Texts are ordered by their code points. -/
def compareTexts (s t : String) : Ordering :=
  if s < t then .lt else if s = t then .eq else .gt

namespace Value

instance : Inhabited Value := ⟨bool false⟩

/-- Equality of values of one kind; values of different kinds are never equal. -/
def equal : Value → Value → Bool
  | bool a, bool b => a == b
  | number m, number n => m.equal n
  | text s, text t => s == t
  | _, _ => false

/-- The number that a value reads as. Truth values read as one and zero, a blank text as zero, and
another text as the decimal that it spells. -/
def reading? : Value → Option Number
  | bool b => some (.ofInt (if b then 1 else 0))
  | number (.nan _) => none
  | number n => some n
  | text s => if Text.isBlankText s then some .zero else Number.read? (Text.trim s)

/-- Texts are compared as texts and truth values as truth values; all else by its reading. -/
def looselyEqual : Value → Value → Bool
  | text s, text t => s == t
  | bool a, bool b => a == b
  | v, w =>
    match v.reading?, w.reading? with
    | some m, some n => m.equal n
    | _, _ => false

/-- Texts are ordered as texts; all else by its reading, if both sides have one. -/
def looselyCompare? : Value → Value → Option Ordering
  | text s, text t => some (compareTexts s t)
  | v, w =>
    match v.reading?, w.reading? with
    | some m, some n => m.compare? n
    | _, _ => none

/-- The text of a value in a table. -/
def plainText : Value → String
  | bool b => if b then "true" else "false"
  | number n => n.plainText
  | text s => s

/-- The value with the sign of zero forgotten, so that equal values that are numbers coincide. -/
def unsignedZero : Value → Value
  | number n => number n.unsignedZero
  | v => v

end Value

end RelTrace
