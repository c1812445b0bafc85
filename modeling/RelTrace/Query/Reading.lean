import RelTrace.Query.Expr
import RelTrace.Query.ParseError

/-!
# Reading queries

A query is read one token at a time. What has been read so far is a state: what may come next, the
operands that wait for their right sides, and the parentheses that are still open. The grammar is

* `expression` ::= `primary` (`⋈` `_` `{` condition `}` `primary`)* (`∪` `expression`)?
* `primary` ::= `π` `[` names `]` `(` `expression` `)` | `σ` `[` condition `]` `(` `expression` `)`
  | `(` `expression` `)` | identifier

so that joins group to the left and unions to the right. A condition is the text of all tokens up to
its closing delimiter.

## Main definitions

* `Reading`: what has been read.
* `Reading.step`, `Reading.finish`: reading one more token, and the end of the tokens.
* `parse`: the tree of a list of tokens.
-/

namespace RelTrace

/-- The operands that wait for their right sides within one pair of parentheses. -/
structure Waiting where
  /-- The left operands of unions, the innermost first. -/
  unions : List Expr
  /-- The left operand and the condition of a join. -/
  join? : Option (Expr × String)
deriving DecidableEq

namespace Waiting

/-- Nothing waits. -/
def none : Waiting := ⟨[], .none⟩

/-- A complete operand goes to the join that waits for it, if there is one. -/
def take (w : Waiting) (e : Expr) : Expr × Waiting :=
  match w.join? with
  | some (left, condition) => (.joinOn condition left e, { w with join? := .none })
  | .none => (e, w)

/-- At the end of an expression every waiting union takes what stands on its right. -/
def close (w : Waiting) (e : Expr) : Expr := w.unions.foldl (fun right left => left.unite right) e

end Waiting

/-- What an open parenthesis belongs to. -/
inductive Enclosure where
  | group
  | project (start : Nat) (attributes : List String)
  | select (start : Nat) (condition : String)
deriving DecidableEq

/-- The tree of a parenthesis that closes at a position. -/
def Enclosure.wrap (stop : Nat) (e : Expr) : Enclosure → Expr
  | group => e
  | project start attributes => .project attributes e ⟨start, stop⟩
  | select start condition => .select condition e ⟨start, stop⟩

/-- The place in the grammar that has been reached. -/
inductive Focus where
  /-- An operand starts here. -/
  | operand
  /-- After an operand: an operator, a closing parenthesis or the end. -/
  | operator (left : Expr)
  /-- After `π`: the bracket of the list of names. -/
  | list (start : Nat)
  /-- At the start of a list of names. -/
  | firstName (start : Nat)
  /-- After a comma in a list of names. -/
  | nextName (start : Nat) (attributes : List String)
  /-- After a name in a list of names. -/
  | afterName (start : Nat) (attributes : List String)
  /-- After `σ`: the bracket of the condition. -/
  | condition (start : Nat)
  /-- Inside the condition of a selection. -/
  | insideCondition (start : Nat) (text : String)
  /-- After a list of names or a condition: the parenthesis of the operand. -/
  | parenthesis (enclosure : Enclosure)
  /-- After `⋈`: the underscore. -/
  | joinMark (left : Expr)
  /-- After `⋈_`: the brace of the condition. -/
  | joinBrace (left : Expr)
  /-- Inside the condition of a join. -/
  | insideJoin (left : Expr) (text : String)
deriving DecidableEq

/-- What is said to be expected where something else, or nothing, follows. -/
def Focus.expected : Focus → Expected
  | operand => .expression
  | operator _ => .token .rightParen
  | list _ | condition _ => .token .leftBracket
  | firstName _ | nextName _ _ => .token .identifier
  | afterName _ _ | insideCondition _ _ => .token .rightBracket
  | parenthesis _ => .token .leftParen
  | joinMark _ => .token .underscore
  | joinBrace _ => .token .leftBrace
  | insideJoin _ _ => .token .rightBrace

/-- A query of which some tokens have been read. -/
structure Reading where
  focus : Focus
  /-- The waiting operands within the innermost parentheses. -/
  waiting : Waiting
  /-- The open parentheses, the innermost first, with the operands that wait around each. -/
  outer : List (Enclosure × Waiting)
deriving DecidableEq

namespace Reading

/-- Nothing has been read. -/
def start : Reading := ⟨.operand, .none, []⟩

/-- An operand is complete. -/
def complete (e : Expr) (waiting : Waiting) (outer : List (Enclosure × Waiting)) : Reading :=
  let (left, waiting) := waiting.take e
  ⟨.operator left, waiting, outer⟩

/-- A parenthesis opens. -/
def openParen (r : Reading) (enclosure : Enclosure) : Reading :=
  ⟨.operand, .none, (enclosure, r.waiting) :: r.outer⟩

/-- The same reading at another place in the grammar. -/
def moveTo (r : Reading) (focus : Focus) : Reading := { r with focus }

/-- The error of a token that cannot stand here. -/
def refuse (r : Reading) (t : Token) : Except ParseError Reading :=
  .error (.unexpectedToken r.focus.expected t.kind t.position)

/-- Goes on if the token is of the kind that has to come. -/
def expect (r : Reading) (kind : Token.Kind) (t : Token) (next : Reading) :
    Except ParseError Reading :=
  if t.kind = kind then .ok next else r.refuse t

/-- An operand starts with a token. -/
def stepOperand (r : Reading) (t : Token) : Except ParseError Reading :=
  match t.kind with
  | .projection => .ok (r.moveTo (.list t.position))
  | .selection => .ok (r.moveTo (.condition t.position))
  | .leftParen => .ok (r.openParen .group)
  | .identifier => .ok (complete (.relation t.text t.span) r.waiting r.outer)
  | _ => r.refuse t

/-- A token follows a complete operand. -/
def stepOperator (r : Reading) (left : Expr) (t : Token) : Except ParseError Reading :=
  match t.kind with
  | .join => .ok (r.moveTo (.joinMark left))
  | .union => .ok ⟨.operand, { r.waiting with unions := left :: r.waiting.unions }, r.outer⟩
  | kind =>
    match r.outer with
    | [] => .error (.trailingInput kind t.position)
    | (enclosure, waiting) :: outer =>
      r.expect .rightParen t
        (complete (enclosure.wrap t.stop (r.waiting.close left)) waiting outer)

/-- Reads one more token. -/
def step (r : Reading) (t : Token) : Except ParseError Reading :=
  match r.focus with
  | .operand => r.stepOperand t
  | .operator left => r.stepOperator left t
  | .list start => r.expect .leftBracket t (r.moveTo (.firstName start))
  | .firstName start =>
    if t.kind = .rightBracket then .ok (r.moveTo (.parenthesis (.project start [])))
    else r.expect .identifier t (r.moveTo (.afterName start [t.text]))
  | .nextName start attributes =>
    r.expect .identifier t (r.moveTo (.afterName start (attributes ++ [t.text])))
  | .afterName start attributes =>
    if t.kind = .comma then .ok (r.moveTo (.nextName start attributes))
    else r.expect .rightBracket t (r.moveTo (.parenthesis (.project start attributes)))
  | .condition start => r.expect .leftBracket t (r.moveTo (.insideCondition start ""))
  | .insideCondition start text =>
    if t.kind = .rightBracket then .ok (r.moveTo (.parenthesis (.select start text)))
    else .ok (r.moveTo (.insideCondition start (text ++ t.text)))
  | .parenthesis enclosure => r.expect .leftParen t (r.openParen enclosure)
  | .joinMark left => r.expect .underscore t (r.moveTo (.joinBrace left))
  | .joinBrace left => r.expect .leftBrace t (r.moveTo (.insideJoin left ""))
  | .insideJoin left text =>
    if t.kind = .rightBrace then
      .ok ⟨.operand, { r.waiting with join? := some (left, text) }, r.outer⟩
    else .ok (r.moveTo (.insideJoin left (text ++ t.text)))

/-- The tree, if the tokens end here. -/
def finish (r : Reading) : Except ParseError Expr :=
  match r.focus, r.outer with
  | .operator left, [] => .ok (r.waiting.close left)
  | focus, _ => .error (.unexpectedEnd focus.expected)

end Reading

/-- The tree of a list of tokens, all of which are read. -/
def parse (tokens : List Token) : Except ParseError Expr := do
  let r ← tokens.foldlM Reading.step Reading.start
  r.finish

end RelTrace
