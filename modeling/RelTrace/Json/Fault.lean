/-!
# Faults of JSON texts

A JSON text is read from left to right, and the first fault met decides why it is refused.

## Main definitions

* `Json.Fault`: the kinds of faults.
* `Json.Flaw`: the fault of a piece of text that is not JSON.
-/

namespace RelTrace.Json

/-- Why a JSON text is refused. -/
inductive Fault where
  /-- The text is not JSON. -/
  | malformed
  /-- The text ends too soon. -/
  | truncated
  /-- The text is JSON so far, but not for a value of the wanted kind. -/
  | unfit
deriving DecidableEq

/-- A piece of text that is not JSON. A value that nobody wants is only skipped, which can meet a
fault later than reading it, or another one. -/
structure Flaw where
  onRead : Fault
  onSkip : Fault
deriving DecidableEq

namespace Flaw

/-- The same fault in either case. -/
def both (f : Fault) : Flaw := ⟨f, f⟩

/-- The text ends inside a number. Who skips the number does not see that its end is the end of the
text. -/
def cutNumber : Flaw := ⟨.truncated, .malformed⟩

end Flaw

end RelTrace.Json
