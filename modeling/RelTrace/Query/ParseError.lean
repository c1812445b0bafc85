import RelTrace.Query.Token

/-!
# Parse errors

Why a list of tokens is not a query: a token that cannot stand where it stands, an end that comes
too soon, or tokens after a complete expression.

## Main definitions

* `ParseError`, `ParseError.message`.
-/

namespace RelTrace

/-- What could have stood at the place of an error. -/
inductive Expected where
  | token (kind : Token.Kind)
  | expression
deriving DecidableEq

/-- How messages name what was expected. -/
def Expected.describe : Expected → String
  | token kind => kind.describe
  | expression => "a relation expression"

/-- The ways in which a list of tokens fails to be a query. -/
inductive ParseError where
  | unexpectedToken (expected : Expected) (found : Token.Kind) (position : Nat)
  | unexpectedEnd (expected : Expected)
  | trailingInput (found : Token.Kind) (position : Nat)
deriving DecidableEq

namespace ParseError

/-- The text of an error. -/
def message : ParseError → String
  | unexpectedToken expected found position =>
    "expected " ++ expected.describe ++ ", found " ++ found.describe ++ " at position " ++
      toString position
  | unexpectedEnd expected => "expected " ++ expected.describe ++ ", found end of input"
  | trailingInput found position =>
    "unexpected " ++ found.describe ++ " at position " ++ toString position ++
      " after a complete expression"

/-- What was expected, where the error says so. -/
def expected? : ParseError → Option Expected
  | unexpectedToken expected _ _ | unexpectedEnd expected => some expected
  | trailingInput _ _ => none

/-- The kind of the offending token, if there is one. -/
def found? : ParseError → Option Token.Kind
  | unexpectedToken _ found _ | trailingInput found _ => some found
  | unexpectedEnd _ => none

/-- The position of the offending token, if there is one. -/
def position? : ParseError → Option Nat
  | unexpectedToken _ _ position | trailingInput _ position => some position
  | unexpectedEnd _ => none

end ParseError

end RelTrace
