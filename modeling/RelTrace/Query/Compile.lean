import RelTrace.Log
import RelTrace.Query.Reading

/-!
# Compiling queries

From the text of a query to its tree, with notes about both stages.

## Main definitions

* `compile`: the tree of a query.
-/

namespace RelTrace

/-- The tree of a list of tokens; a success is noted. -/
def parseLogged (tokens : List Token) : Logged (Except ParseError Expr) :=
  match parse tokens with
  | .ok e =>
    ⟨.ok e, [⟨.debug, "parsed " ++ toString tokens.length ++ " tokens into a " ++
      e.operator.name ++ " tree of " ++ toString e.nodeCount ++ " nodes"⟩]⟩
  | .error err => ⟨.error err, []⟩

/-- The tokens of a query, with a note of how many there are. -/
def tokenizeLogged (query : String) : Logged (List Token) :=
  let tokens := tokenize query
  ⟨tokens, [⟨.trace, "tokenized " ++ toString query.utf8ByteSize ++ " bytes into " ++
    toString tokens.length ++ " tokens"⟩]⟩

/-- The tree of a query. -/
def compile (query : String) : Logged (Except ParseError Expr) := do
  parseLogged (← tokenizeLogged query)

end RelTrace
