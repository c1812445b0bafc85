import RelTrace.Query.Reading

/-!
# Recursive descent

Each nonterminal symbol of the grammar as a function. It reads a part at the front of the tokens
and hands the tokens behind it on, which are fewer, so the descent ends. Reading token by token
finds the same trees and the same errors: what it keeps waiting is what the functions that have
been called go on with.

## Main definitions

* `Part`: what has been read, and the tokens behind it.
* `Descent.expression`, `Descent.operators`, `Descent.primary`: the grammar as functions.
* `descend`: the tree of a list of tokens.
-/

namespace RelTrace

/-- What has been read at the front of some tokens, and those behind it, whose number has a bound
that they stay below. -/
@[grind cases]
structure Part (bound : Nat) (α : Type) where
  value : α
  rest : List Token
  length_lt : rest.length < bound

/-- A part has every greater bound. -/
def Part.mono {α : Type} {m n : Nat} (p : Part m α) (h : m ≤ n) : Part n α :=
  ⟨p.value, p.rest, Nat.lt_of_lt_of_le p.length_lt h⟩

namespace Descent

/-- Reads a token of the kind that has to come. -/
def expect (kind : Token.Kind) : (ts : List Token) → Except ParseError (Part ts.length Token)
  | [] => .error (.unexpectedEnd (.token kind))
  | t :: later =>
    if t.kind = kind then .ok ⟨t, later, Nat.lt_succ_self later.length⟩
    else .error (.unexpectedToken (.token kind) t.kind t.position)

/-- Reads tokens up to one of a kind, or to the end, and puts their texts behind a text. -/
def rawText (stop : Token.Kind) (text : String) : (ts : List Token) → Part (ts.length + 1) String
  | [] => ⟨text, [], Nat.zero_lt_one⟩
  | t :: later =>
    if t.kind = stop then ⟨text, t :: later, Nat.lt_succ_self _⟩
    else (rawText stop (text ++ t.text) later).mono (Nat.le_succ _)

/-- Reads names that are separated by commas, and puts them behind others. -/
def names (attributes : List String) (ts : List Token) :
    Except ParseError (Part ts.length (List String)) := do
  match ← expect .identifier ts with
  | ⟨name, [], h⟩ => return ⟨attributes ++ [name.text], [], h⟩
  | ⟨name, t :: later, h⟩ =>
    if t.kind = .comma then
      return (← names (attributes ++ [name.text]) later).mono (by grind)
    else return ⟨attributes ++ [name.text], t :: later, h⟩
termination_by ts.length
decreasing_by grind

/-- Reads names unless the list of them ends at once. -/
def nameList : (ts : List Token) → Except ParseError (Part (ts.length + 1) (List String))
  | [] => return (← names [] []).mono (Nat.le_succ _)
  | t :: later =>
    if t.kind = .rightBracket then return ⟨[], t :: later, Nat.lt_succ_self _⟩
    else return (← names [] (t :: later)).mono (Nat.le_succ _)

mutual

/-- Reads an expression: an operand and what operators make of it. -/
def expression (ts : List Token) : Except ParseError (Part ts.length Expr) := do
  let left ← primary ts
  let e ← operators left.value left.rest
  return e.mono left.length_lt
termination_by 6 * ts.length + 5
decreasing_by all_goals grind

/-- Reads joins as long as they come, and the rest of a union, behind an operand. -/
def operators (left : Expr) : (ts : List Token) → Except ParseError (Part (ts.length + 1) Expr)
  | [] => return ⟨left, [], Nat.zero_lt_one⟩
  | t :: later =>
    match t.kind with
    | .union => do
      let right ← expression later
      return ⟨left.unite right.value, right.rest, by grind⟩
    | .join => do
      let mark ← expect .underscore later
      let brace ← expect .leftBrace mark.rest
      let condition := rawText .rightBrace "" brace.rest
      let close ← expect .rightBrace condition.rest
      let right ← primary close.rest
      let e ← operators (.joinOn condition.value left right.value) right.rest
      return e.mono (by grind)
    | _ => return ⟨left, t :: later, Nat.lt_succ_self _⟩
termination_by ts => 6 * ts.length
decreasing_by all_goals grind

/-- Reads an operand. -/
def primary : (ts : List Token) → Except ParseError (Part ts.length Expr)
  | [] => .error (.unexpectedEnd .expression)
  | t :: later =>
    match t.kind with
    | .identifier => .ok ⟨.relation t.text t.span, later, Nat.lt_succ_self _⟩
    | .projection => projection (t :: later)
    | .selection => selection (t :: later)
    | .leftParen => do
      let e ← expression later
      let close ← expect .rightParen e.rest
      return ⟨e.value, close.rest, by grind⟩
    | found => .error (.unexpectedToken .expression found t.position)
termination_by ts => 6 * ts.length + 4
decreasing_by all_goals grind

/-- Reads a projection. -/
def projection (ts : List Token) : Except ParseError (Part ts.length Expr) := do
  let first ← expect .projection ts
  let bracket ← expect .leftBracket first.rest
  let attributes ← nameList bracket.rest
  let close ← expect .rightBracket attributes.rest
  let operand ← parenthesized close.rest
  let (e, stop) := operand.value
  return ⟨.project attributes.value e ⟨first.value.position, stop⟩, operand.rest,
    by grind⟩
termination_by 6 * ts.length + 3
decreasing_by all_goals grind

/-- Reads a selection. -/
def selection (ts : List Token) : Except ParseError (Part ts.length Expr) := do
  let first ← expect .selection ts
  let bracket ← expect .leftBracket first.rest
  let condition := rawText .rightBracket "" bracket.rest
  let close ← expect .rightBracket condition.rest
  let operand ← parenthesized close.rest
  let (e, stop) := operand.value
  return ⟨.select condition.value e ⟨first.value.position, stop⟩, operand.rest,
    by grind⟩
termination_by 6 * ts.length + 3
decreasing_by all_goals grind

/-- Reads an expression in parentheses, with the position just past them. -/
def parenthesized (ts : List Token) : Except ParseError (Part ts.length (Expr × Nat)) := do
  let paren ← expect .leftParen ts
  let e ← expression paren.rest
  let close ← expect .rightParen e.rest
  return ⟨(e.value, close.value.stop), close.rest, by grind⟩
termination_by 6 * ts.length + 2
decreasing_by all_goals grind

end

end Descent

/-- The tree of a list of tokens, all of which are read. -/
def descend (ts : List Token) : Except ParseError Expr := do
  let e ← Descent.expression ts
  match e.rest with
  | [] => return e.value
  | t :: _ => throw (.trailingInput t.kind t.position)

/-! ## Reading token by token -/

/-- What becomes of a reading if the tokens come next and then the end. -/
def Reading.readOn (r : Reading) (ts : List Token) : Except ParseError Expr := do
  (← ts.foldlM step r).finish

theorem Reading.readOn_nil (r : Reading) : r.readOn [] = r.finish := rfl

theorem Reading.readOn_cons (r : Reading) (t : Token) (ts : List Token) :
    r.readOn (t :: ts) = r.step t >>= fun s => s.readOn ts := by
  rw [readOn, List.foldlM_cons, bind_assoc]
  rfl

namespace Descent

open Reading

section Parts

variable {r : Reading} {kind : Token.Kind} {t : Token} {later : List Token} {w : Waiting}
  {outer : List (Enclosure × Waiting)}

theorem expect_cons (h : t.kind = kind) :
    expect kind (t :: later) = pure ⟨t, later, Nat.lt_succ_self later.length⟩ := if_pos h

/-- Where one kind of token has to come, it is expected. -/
theorem readOn_expect (kind : Token.Kind) (next : Token → Reading) {ts : List Token}
    (hstep : ∀ t ∈ ts.head?, r.step t = if t.kind = kind then .ok (next t)
      else .error (.unexpectedToken (.token kind) t.kind t.position))
    (hfinish : r.finish = .error (.unexpectedEnd (.token kind))) :
    r.readOn ts = expect kind ts >>= fun p => (next p.value).readOn p.rest := by
  cases ts with
  | nil => rw [readOn_nil, hfinish, expect]; rfl
  | cons t later =>
    rw [readOn_cons, hstep t rfl, expect]
    split <;> rfl

/-- A text goes on up to the token that ends it, which has to come. -/
theorem readOn_rawText (stop : Token.Kind) (inside next : String → Reading)
    (hstep : ∀ text t, (inside text).step t =
      .ok (if t.kind = stop then next text else inside (text ++ t.text)))
    (hfinish : ∀ text, (inside text).finish = .error (.unexpectedEnd (.token stop)))
    (text : String) (ts : List Token) :
    (inside text).readOn ts = expect stop (rawText stop text ts).rest >>= fun p =>
      (next (rawText stop text ts).value).readOn p.rest := by
  induction ts generalizing text with
  | nil => exact (hfinish text).trans rfl
  | cons t later ih =>
    rw [readOn_cons, hstep]
    by_cases ht : t.kind = stop
    · have hraw : rawText stop text (t :: later) = ⟨text, t :: later, Nat.lt_succ_self _⟩ :=
        if_pos ht
      rw [if_pos ht, hraw, expect_cons ht]
      rfl
    · have hraw : rawText stop text (t :: later) =
          (rawText stop (text ++ t.text) later).mono (Nat.le_succ _) := if_neg ht
      rw [if_neg ht, hraw]
      exact ih (text ++ t.text)

/-- The names of a projection and the bracket behind them. -/
theorem readOn_names (start : Nat) (attributes : List String) (ts : List Token) :
    readOn ⟨.nextName start attributes, w, outer⟩ ts = (do
      let attributes ← names attributes ts
      let close ← expect .rightBracket attributes.rest
      readOn ⟨.parenthesis (.project start attributes.value), w, outer⟩ close.rest) := by
  induction attributes, ts using names.induct with
  | case1 attributes ts ih =>
    rw [names, bind_assoc, readOn_expect .identifier
      (fun t => ⟨.afterName start (attributes ++ [t.text]), w, outer⟩) (fun _ _ => rfl) rfl]
    refine bind_congr fun ⟨name, rest, hlt⟩ => ?_
    cases rest with
    | nil => rfl
    | cons t later =>
      by_cases hcomma : t.kind = .comma
      · have hstep : step ⟨.afterName start (attributes ++ [name.text]), w, outer⟩ t =
            .ok ⟨.nextName start (attributes ++ [name.text]), w, outer⟩ := if_pos hcomma
        simp only [if_pos hcomma, readOn_cons, hstep, bind_assoc]
        exact ih name t later hlt
      · simp only [if_neg hcomma, pure_bind]
        refine readOn_expect .rightBracket
          (fun _ => ⟨.parenthesis (.project start (attributes ++ [name.text])), w, outer⟩)
          (fun u hu => ?_) rfl
        obtain rfl : t = u := Option.some.inj hu
        exact if_neg hcomma

/-- The names of a projection, if there are any, and the bracket behind them. -/
theorem readOn_nameList (start : Nat) (ts : List Token) :
    readOn ⟨.firstName start, w, outer⟩ ts = (do
      let attributes ← nameList ts
      let close ← expect .rightBracket attributes.rest
      readOn ⟨.parenthesis (.project start attributes.value), w, outer⟩ close.rest) := by
  cases ts with
  | nil => exact (readOn_names start [] []).trans (by rw [nameList, bind_assoc]; rfl)
  | cons t later =>
    rw [nameList]
    split
    · next ht =>
      have hstep : step ⟨.firstName start, w, outer⟩ t =
          .ok ⟨.parenthesis (.project start []), w, outer⟩ := if_pos ht
      rw [readOn_cons, hstep, pure_bind, expect_cons ht]
      rfl
    · next ht =>
      have hstep : step ⟨.firstName start, w, outer⟩ t =
          step ⟨.nextName start [], w, outer⟩ t := if_neg ht
      rw [readOn_cons, hstep, ← readOn_cons, readOn_names, bind_assoc]
      rfl

end Parts

/-- What becomes of an expression behind which no operator stands. -/
def settle (e : Expr) (outer : List (Enclosure × Waiting)) (ts : List Token) :
    Except ParseError Expr :=
  match outer with
  | [] =>
    match ts with
    | [] => .ok e
    | t :: _ => .error (.trailingInput t.kind t.position)
  | (enclosure, w) :: outer => do
    let close ← expect .rightParen ts
    (complete (enclosure.wrap close.value.stop e) w outer).readOn close.rest

/-- The functions go on as reading token by token does. -/
structure Follows (ts : List Token) : Prop where
  primary : ∀ w outer, readOn ⟨.operand, w, outer⟩ ts =
    primary ts >>= fun e => (complete e.value w outer).readOn e.rest
  operators : ∀ left unions outer, readOn ⟨.operator left, ⟨unions, none⟩, outer⟩ ts =
    operators left ts >>= fun e => settle (Waiting.close ⟨unions, none⟩ e.value) outer e.rest
  expression : ∀ unions outer, readOn ⟨.operand, ⟨unions, none⟩, outer⟩ ts =
    expression ts >>= fun e => settle (Waiting.close ⟨unions, none⟩ e.value) outer e.rest

section Follows

variable {t : Token} {ts later : List Token} {w : Waiting} {outer : List (Enclosure × Waiting)}

/-- An expression in parentheses completes the operand that they belong to. -/
theorem readOn_parenthesis (ih : ∀ us, us.length < ts.length → Follows us)
    (enclosure : Enclosure) :
    readOn ⟨.parenthesis enclosure, w, outer⟩ ts = parenthesized ts >>= fun operand =>
      (complete (enclosure.wrap operand.value.2 operand.value.1) w outer).readOn operand.rest := by
  rw [readOn_expect .leftParen (fun _ => ⟨.operand, .none, (enclosure, w) :: outer⟩)
    (fun _ _ => rfl) rfl, parenthesized, bind_assoc]
  refine bind_congr fun paren => ?_
  have hexpression := (ih paren.rest paren.length_lt).expression [] ((enclosure, w) :: outer)
  rw [bind_assoc]
  refine hexpression.trans (bind_congr fun e => ?_)
  rw [bind_assoc]
  rfl

theorem readOn_projection (ih : ∀ us, us.length < (t :: later).length → Follows us)
    (ht : t.kind = .projection) :
    readOn ⟨.list t.position, w, outer⟩ later = projection (t :: later) >>= fun e =>
      (complete e.value w outer).readOn e.rest := by
  rw [readOn_expect .leftBracket (fun _ => ⟨.firstName t.position, w, outer⟩) (fun _ _ => rfl) rfl,
    projection, expect_cons ht, pure_bind, bind_assoc]
  refine bind_congr fun bracket => ?_
  rw [readOn_nameList, bind_assoc]
  refine bind_congr fun attributes => ?_
  rw [bind_assoc]
  refine bind_congr fun close => ?_
  rw [readOn_parenthesis fun us h => ih us (by grind), bind_assoc]
  rfl

theorem readOn_selection (ih : ∀ us, us.length < (t :: later).length → Follows us)
    (ht : t.kind = .selection) :
    readOn ⟨.condition t.position, w, outer⟩ later = selection (t :: later) >>= fun e =>
      (complete e.value w outer).readOn e.rest := by
  rw [readOn_expect .leftBracket (fun _ => ⟨.insideCondition t.position "", w, outer⟩)
    (fun _ _ => rfl) rfl, selection, expect_cons ht, pure_bind, bind_assoc]
  refine bind_congr fun bracket => ?_
  rw [readOn_rawText .rightBracket (fun text => ⟨.insideCondition t.position text, w, outer⟩)
    (fun text => ⟨.parenthesis (.select t.position text), w, outer⟩)
    (fun _ _ => (apply_ite Except.ok _ _ _).symm) fun _ => rfl, bind_assoc]
  refine bind_congr fun close => ?_
  have hcondition := (rawText .rightBracket "" bracket.rest).length_lt
  rw [readOn_parenthesis fun us h => ih us (by grind), bind_assoc]
  rfl

theorem readOn_operand (ih : ∀ us, us.length < ts.length → Follows us) :
    readOn ⟨.operand, w, outer⟩ ts = primary ts >>= fun e =>
      (complete e.value w outer).readOn e.rest := by
  cases ts with
  | nil =>
    rw [primary]
    rfl
  | cons t later =>
    have hstep : step ⟨.operand, w, outer⟩ t = stepOperand ⟨.operand, w, outer⟩ t := rfl
    rw [readOn_cons, hstep, primary, stepOperand]
    cases ht : t.kind with
    | projection => exact readOn_projection ih ht
    | selection => exact readOn_selection ih ht
    | leftParen =>
      have hexpression := (ih later (Nat.lt_succ_self _)).expression [] ((.group, w) :: outer)
      refine hexpression.trans ?_
      simp only [bind_assoc, pure_bind]
      rfl
    | identifier => rfl
    | _ =>
      rw [refuse, ht]
      rfl

/-- Where no operator follows, an expression is settled. -/
theorem readOn_settle (e : Expr) (h : ∀ t ∈ ts.head?, t.kind ≠ .join ∧ t.kind ≠ .union) :
    readOn ⟨.operator e, w, outer⟩ ts = settle (w.close e) outer ts := by
  cases outer with
  | nil =>
    cases ts with
    | nil => rfl
    | cons t later =>
      have hstep : step ⟨.operator e, w, []⟩ t = .error (.trailingInput t.kind t.position) := by
        obtain ⟨hjoin, hunion⟩ := h t rfl
        simp only [step, stepOperator]
      rw [readOn_cons, hstep]
      rfl
  | cons around outer =>
    refine readOn_expect .rightParen
      (fun t => complete (around.1.wrap t.stop (w.close e)) around.2 outer) (fun t ht => ?_) rfl
    obtain ⟨hjoin, hunion⟩ := h t ht
    simp only [step, stepOperator]
    rfl

theorem readOn_operator (ih : ∀ us, us.length < ts.length → Follows us) (left : Expr)
    (unions : List Expr) :
    readOn ⟨.operator left, ⟨unions, none⟩, outer⟩ ts = operators left ts >>= fun e =>
      settle (Waiting.close ⟨unions, none⟩ e.value) outer e.rest := by
  cases ts with
  | nil =>
    rw [operators]
    exact readOn_settle left (by simp)
  | cons t later =>
    rw [operators]
    cases ht : t.kind with
    | join =>
      have hstep : step ⟨.operator left, ⟨unions, none⟩, outer⟩ t =
          pure ⟨.joinMark left, ⟨unions, none⟩, outer⟩ := by simp only [step, stepOperator, ht]; rfl
      rw [readOn_cons, hstep, pure_bind, readOn_expect .underscore
        (fun _ => ⟨.joinBrace left, ⟨unions, none⟩, outer⟩) (fun _ _ => rfl) rfl]
      simp only [bind_assoc, pure_bind]
      refine bind_congr fun mark => ?_
      rw [readOn_expect .leftBrace (fun _ => ⟨.insideJoin left "", ⟨unions, none⟩, outer⟩)
        (fun _ _ => rfl) rfl]
      refine bind_congr fun brace => ?_
      rw [readOn_rawText .rightBrace (fun text => ⟨.insideJoin left text, ⟨unions, none⟩, outer⟩)
        (fun text => ⟨.operand, ⟨unions, some (left, text)⟩, outer⟩)
        (fun _ _ => (apply_ite Except.ok _ _ _).symm) fun _ => rfl]
      refine bind_congr fun close => ?_
      have hcondition := (rawText .rightBrace "" brace.rest).length_lt
      rw [(ih close.rest (by grind)).primary]
      exact bind_congr fun right => (ih right.rest (by grind)).operators _ unions outer
    | union =>
      have hstep : step ⟨.operator left, ⟨unions, none⟩, outer⟩ t =
          pure ⟨.operand, ⟨left :: unions, none⟩, outer⟩ := by
        simp only [step, stepOperator, ht]
        rfl
      have hlater := ih later (Nat.lt_succ_self _)
      rw [readOn_cons, hstep, pure_bind, hlater.expression]
      simp only [bind_assoc, pure_bind]
      rfl
    | _ => exact readOn_settle left (by simp [ht])

theorem follows (ts : List Token) : Follows ts := by
  induction hn : ts.length using Nat.strongRecOn generalizing ts with
  | ind n ih =>
    have hshorter : ∀ us, us.length < ts.length → Follows us := fun us h =>
      ih us.length (hn ▸ h) us rfl
    refine ⟨fun w outer => readOn_operand hshorter,
      fun left unions outer => readOn_operator hshorter left unions, fun unions outer => ?_⟩
    rw [readOn_operand hshorter, expression, bind_assoc]
    refine bind_congr fun left => ?_
    rw [bind_assoc]
    exact (hshorter left.rest left.length_lt).operators left.value unions outer

end Follows

end Descent

/-- Recursive descent finds the same trees and the same errors as reading token by token. -/
theorem descend_eq_parse (ts : List Token) : descend ts = parse ts := by
  have hparse : parse ts = Reading.readOn .start ts := rfl
  rw [hparse, descend]
  refine Eq.trans ?_ ((Descent.follows ts).expression [] []).symm
  refine bind_congr fun e => ?_
  cases e.rest <;> rfl

end RelTrace
