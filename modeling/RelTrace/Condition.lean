import RelTrace.Log
import RelTrace.Row
import RelTrace.Text.Cut
import RelTrace.Text.Quoted

/-!
# Conditions

The condition of a selection is a text. It is read by looking for comparison symbols in a fixed
order; the first symbol that stands exactly once, with a text on both sides, splits it into an
attribute and a literal. Since `=` is looked for before `!=`, the text `a!=1` compares the attribute
`a!` with `=`. A text without such a symbol holds for every row.

## Main definitions

* `Comparison.read?`, `Condition.read`: the meaning of a text.
* `Comparison.holds`, `Condition.holds`: whether a row satisfies it.
-/

namespace RelTrace

/-- The comparisons that a condition may make. -/
inductive Comparator where
  | atLeast
  | atMost
  | above
  | below
  | same
  | different
deriving DecidableEq

/-- How a comparison is written. -/
def Comparator.symbol : Comparator → String
  | atLeast => ">="
  | atMost => "<="
  | above => ">"
  | below => "<"
  | same => "="
  | different => "!="

/-- The order in which comparison symbols are looked for. -/
def Comparator.searchOrder : List Comparator := [atLeast, atMost, above, below, same, different]

/-- Whether a comparison holds of a value and a literal. -/
def Comparator.holds (c : Comparator) (v literal : Value) : Bool :=
  match c with
  | above => v.looselyCompare? literal = some .gt
  | below => v.looselyCompare? literal = some .lt
  | atLeast => v.looselyCompare? literal = some .gt ∨ v.looselyCompare? literal = some .eq
  | atMost => v.looselyCompare? literal = some .lt ∨ v.looselyCompare? literal = some .eq
  | same => v.looselyEqual literal
  | different => !v.looselyEqual literal

/-- An attribute compared with a literal. -/
structure Comparison where
  subject : String
  comparator : Comparator
  literal : Value
deriving DecidableEq

namespace Comparison

/-- The quotation marks around a text literal. -/
def isQuote (c : Char) : Bool := c = '\'' || c = '"'

/-- A decimal spelling is a number. Anything else is a text, without the quotation marks around
it. -/
def readLiteral (s : String) : Value :=
  match Number.read? s with
  | some n => .number n
  | none => .text (String.ofList (Text.strip isQuote s.toList))

/-- Reads a text as a comparison with one given symbol. -/
def readWith? (text : String) (c : Comparator) : Option Comparison :=
  match Text.soleCut? c.symbol.toList text.toList with
  | some (left, right) =>
    let subject := Text.strip Text.isBlank left
    let literal := Text.strip Text.isBlank right
    if subject = [] ∨ literal = [] then none
    else some ⟨String.ofList subject, c, readLiteral (String.ofList literal)⟩
  | none => none

/-- The comparison that a text makes. -/
def read? (text : String) : Option Comparison := Comparator.searchOrder.findSome? (readWith? text)

/-- Whether a row satisfies the comparison. A row without the attribute differs from everything. -/
def holds (c : Comparison) (r : Row) : Bool :=
  match r.find? c.subject with
  | some v => c.comparator.holds v c.literal
  | none => c.comparator = .different

end Comparison

/-- The condition of a selection. -/
inductive Condition where
  | compare (c : Comparison)
  | always
deriving DecidableEq

namespace Condition

/-- The condition that a text stands for. -/
def read (text : String) : Condition :=
  match Comparison.read? text with
  | some c => compare c
  | none => always

/-- Reads a condition; that it holds for every row is noted. -/
def readLogged (text : String) : Logged Condition :=
  match Comparison.read? text with
  | some c => pure (compare c)
  | none => do
    Logged.note .debug ("condition " ++ Text.quote text ++
      " has no comparison operator, passing all rows")
    pure always

theorem value_readLogged (text : String) : (readLogged text).value = read text := by
  unfold readLogged read
  cases Comparison.read? text <;> rfl

/-- Whether a row satisfies the condition. -/
def holds (c : Condition) (r : Row) : Bool :=
  match c with
  | compare c => c.holds r
  | always => true

end Condition

end RelTrace
