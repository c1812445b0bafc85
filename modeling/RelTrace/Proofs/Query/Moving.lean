import RelTrace.Proofs.Query.Reads
import RelTrace.Proofs.Query.Spans

/-!
# Tokens that move

Reading looks at kinds and texts. The places of tokens are only written down, into spans and errors.
When tokens move as whole pieces, the outcome of reading moves with them and is the same otherwise.

## Main definitions

* `Move`: where the beginnings and the ends of tokens go.
* `Move.shift`, `Move.insertion`: all places, or those behind an insertion, go to the right.
* `Token.move`, `Expr.move`, `ParseError.move`, `Reading.move`: what has moved.
-/

namespace RelTrace

/-- Where beginnings and ends go when a text is edited around them. -/
structure Move where
  start : Nat → Nat
  stop : Nat → Nat

namespace Move

/-- The text stands further to the right. -/
def shift (distance : Nat) : Move := ⟨(· + distance), (· + distance)⟩

/-- Characters come in at a place. What begins there or later moves, and what ends later. -/
def insertion (place length : Nat) : Move where
  start p := if place ≤ p then p + length else p
  stop p := if place < p then p + length else p

end Move

variable {m : Move} {t : Token} {ts : List Token} {e l r : Expr}

def Token.move (m : Move) (t : Token) : Token := { t with position := m.start t.position }

/-- The token moves as a whole: its end goes where the move takes ends. -/
def Token.MovesWhole (m : Move) (t : Token) : Prop := (t.move m).stop = m.stop t.stop

def Span.move (m : Move) (s : Span) : Span := ⟨m.start s.start, m.stop s.stop⟩

def Expr.move (m : Move) (e : Expr) : Expr := e.mapSpans (Span.move m)

def ParseError.move (m : Move) : ParseError → ParseError
  | unexpectedToken expected found position =>
    unexpectedToken expected found (m.start position)
  | unexpectedEnd expected => unexpectedEnd expected
  | trailingInput found position => trailingInput found (m.start position)

/-- The outcome of reading moved tokens: the moved result or the moved error. -/
def moveOutcome {α : Type} (m : Move) (move : Move → α → α) (x : Except ParseError α) :
    Except ParseError α :=
  (x.map (move m)).mapError (ParseError.move m)

namespace Expr

@[simp] theorem span_move (m : Move) (e : Expr) : (e.move m).span = e.span.move m := by
  cases e <;> rfl

theorem move_unite (m : Move) (l r : Expr) : (l.unite r).move m = (l.move m).unite (r.move m) := by
  simp only [unite, span_move]
  rfl

theorem move_joinOn (m : Move) (condition : String) (l r : Expr) :
    (joinOn condition l r).move m = joinOn condition (l.move m) (r.move m) := by
  simp only [joinOn, span_move]
  rfl

end Expr

def Enclosure.move (m : Move) : Enclosure → Enclosure
  | group => group
  | project start attributes => project (m.start start) attributes
  | select start condition => select (m.start start) condition

def Waiting.move (m : Move) (w : Waiting) : Waiting where
  unions := w.unions.map (Expr.move m)
  join? := w.join?.map fun (left, condition) => (left.move m, condition)

def Focus.move (m : Move) : Focus → Focus
  | operand => operand
  | operator left => operator (left.move m)
  | list start => list (m.start start)
  | firstName start => firstName (m.start start)
  | nextName start attributes => nextName (m.start start) attributes
  | afterName start attributes => afterName (m.start start) attributes
  | condition start => condition (m.start start)
  | insideCondition start text => insideCondition (m.start start) text
  | parenthesis enclosure => parenthesis (enclosure.move m)
  | joinMark left => joinMark (left.move m)
  | joinBrace left => joinBrace (left.move m)
  | insideJoin left text => insideJoin (left.move m) text

def Reading.move (m : Move) (r : Reading) : Reading where
  focus := r.focus.move m
  waiting := r.waiting.move m
  outer := r.outer.map fun (enclosure, w) => (enclosure.move m, w.move m)

namespace Waiting

theorem close_move (m : Move) (w : Waiting) (e : Expr) :
    (w.move m).close (e.move m) = (w.close e).move m := by
  obtain ⟨unions, join?⟩ := w
  simp only [close, move]
  induction unions generalizing e with
  | nil => rfl
  | cons left unions ih =>
    rw [List.map_cons, List.foldl_cons, List.foldl_cons, ← Expr.move_unite, ih]

theorem take_move (m : Move) (w : Waiting) (e : Expr) :
    (w.move m).take (e.move m) = ((w.take e).1.move m, (w.take e).2.move m) := by
  obtain ⟨unions, join?⟩ := w
  cases join? with
  | none => rfl
  | some waiting =>
    simp only [take, Expr.move_joinOn]
    rfl

end Waiting

theorem Enclosure.wrap_move (m : Move) (stop : Nat) (e : Expr) (enclosure : Enclosure) :
    (enclosure.move m).wrap (m.stop stop) (e.move m) = (enclosure.wrap stop e).move m := by
  cases enclosure <;> rfl

@[simp] theorem Focus.expected_move (m : Move) (f : Focus) : (f.move m).expected = f.expected := by
  cases f <;> rfl

namespace Reading

variable {r : Reading}

theorem complete_move (m : Move) (e : Expr) (w : Waiting) (outer : List (Enclosure × Waiting)) :
    (complete e w outer).move m =
      complete (e.move m) (w.move m)
        (outer.map fun (enclosure, w) => (enclosure.move m, w.move m)) := by
  simp only [complete, Waiting.take_move]
  rfl

theorem refuse_move (m : Move) (r : Reading) (t : Token) :
    (r.move m).refuse (t.move m) = moveOutcome m move (r.refuse t) := by
  simp only [refuse, move, Focus.expected_move]
  rfl

theorem expect_move (m : Move) (r : Reading) (kind : Token.Kind) (t : Token) (next : Reading) :
    (r.move m).expect kind (t.move m) (next.move m) =
      moveOutcome m move (r.expect kind t next) := by
  simp only [expect, refuse_move]
  by_cases h : t.kind = kind
  · rw [if_pos h, if_pos (show (t.move m).kind = kind from h)]
    rfl
  · rw [if_neg h, if_neg (show (t.move m).kind ≠ kind from h)]

theorem stepOperand_move (h : t.MovesWhole m) (r : Reading) :
    (r.move m).stepOperand (t.move m) = moveOutcome m move (r.stepOperand t) := by
  have hspan : (t.move m).span = t.span.move m := by
    rw [Token.span, h]
    rfl
  have hkind : (t.move m).kind = t.kind := rfl
  unfold stepOperand
  rw [hkind]
  split
  case h_4 =>
    rw [hspan]
    exact (congrArg Except.ok (complete_move m (.relation t.text t.span) r.waiting r.outer)).symm
  case h_5 => exact refuse_move m r t
  all_goals rfl

theorem stepOperator_move (h : t.MovesWhole m) (r : Reading) (left : Expr) :
    (r.move m).stepOperator (left.move m) (t.move m) =
      moveOutcome m move (r.stepOperator left t) := by
  have hkind : (t.move m).kind = t.kind := rfl
  obtain ⟨focus, w, outer⟩ := r
  unfold stepOperator
  rw [hkind]
  split
  case h_3 =>
    cases outer with
    | nil => rfl
    | cons opened outer =>
      obtain ⟨enclosure, around⟩ := opened
      have hstop : (t.move m).stop = m.stop t.stop := h
      have hclose : complete ((enclosure.move m).wrap (t.move m).stop
            ((w.move m).close (left.move m))) (around.move m)
            (outer.map fun (enclosure, w) => (enclosure.move m, w.move m)) =
          (complete (enclosure.wrap t.stop (w.close left)) around outer).move m := by
        rw [hstop, Waiting.close_move, Enclosure.wrap_move, complete_move]
      exact (congrArg _ hclose).trans (expect_move m ⟨focus, w, (enclosure, around) :: outer⟩ _ t _)
  all_goals rfl

/-- A choice by the kind of the token does not depend on its place. -/
theorem ite_move {kind : Token.Kind} {a : Reading} {x y : Except ParseError Reading}
    (h : y = moveOutcome m move x) :
    (if (t.move m).kind = kind then .ok (a.move m) else y) =
      moveOutcome m move (if t.kind = kind then .ok a else x) := by
  have hkind : (t.move m).kind = t.kind := rfl
  rw [hkind, h]
  split <;> rfl

/-- Reading a moved token is reading the token, moved. -/
theorem step_move (h : t.MovesWhole m) (r : Reading) :
    (r.move m).step (t.move m) = moveOutcome m move (r.step t) := by
  obtain ⟨focus, w, outer⟩ := r
  cases focus with
  | operand => exact stepOperand_move h ⟨.operand, w, outer⟩
  | operator left => exact stepOperator_move h ⟨.operator left, w, outer⟩ left
  | list start =>
    exact expect_move m ⟨.list start, w, outer⟩ _ t ⟨.firstName start, w, outer⟩
  | firstName start =>
    exact ite_move (a := ⟨.parenthesis (.project start []), w, outer⟩)
      (expect_move m ⟨.firstName start, w, outer⟩ _ t ⟨.afterName start [t.text], w, outer⟩)
  | nextName start names =>
    exact expect_move m ⟨.nextName start names, w, outer⟩ _ t
      ⟨.afterName start (names ++ [t.text]), w, outer⟩
  | afterName start names =>
    exact ite_move (a := ⟨.nextName start names, w, outer⟩)
      (expect_move m ⟨.afterName start names, w, outer⟩ _ t
        ⟨.parenthesis (.project start names), w, outer⟩)
  | condition start =>
    exact expect_move m ⟨.condition start, w, outer⟩ _ t ⟨.insideCondition start "", w, outer⟩
  | insideCondition start text =>
    exact ite_move (a := ⟨.parenthesis (.select start text), w, outer⟩)
      (x := .ok ⟨.insideCondition start (text ++ t.text), w, outer⟩) rfl
  | parenthesis enclosure =>
    exact expect_move m ⟨.parenthesis enclosure, w, outer⟩ _ t
      ⟨.operand, .none, (enclosure, w) :: outer⟩
  | joinMark left =>
    exact expect_move m ⟨.joinMark left, w, outer⟩ _ t ⟨.joinBrace left, w, outer⟩
  | joinBrace left =>
    exact expect_move m ⟨.joinBrace left, w, outer⟩ _ t ⟨.insideJoin left "", w, outer⟩
  | insideJoin left text =>
    exact ite_move (a := ⟨.operand, { w with join? := some (left, text) }, outer⟩)
      (x := .ok ⟨.insideJoin left (text ++ t.text), w, outer⟩) rfl

theorem foldlM_step_move (h : ∀ t ∈ ts, t.MovesWhole m) (r : Reading) :
    (ts.map (Token.move m)).foldlM step (r.move m) = moveOutcome m move (ts.foldlM step r) := by
  induction ts generalizing r with
  | nil => rfl
  | cons t ts ih =>
    rw [List.map_cons, List.foldlM_cons, List.foldlM_cons, step_move (h t List.mem_cons_self)]
    cases r.step t with
    | error => rfl
    | ok s => exact ih (fun u hu => h u (List.mem_cons_of_mem t hu)) s

theorem finish_move (m : Move) (r : Reading) :
    (r.move m).finish = moveOutcome m Expr.move r.finish := by
  obtain ⟨focus, w, outer⟩ := r
  cases focus with
  | operator left =>
    cases outer with
    | nil => exact congrArg Except.ok (Waiting.close_move m w left)
    | cons => rfl
  | _ => rfl

end Reading

/-- Moved tokens have the moved tree, or the moved error. -/
theorem parse_move (h : ∀ t ∈ ts, t.MovesWhole m) :
    parse (ts.map (Token.move m)) = moveOutcome m Expr.move (parse ts) := by
  have hreads := Reading.foldlM_step_move h .start
  have hstart : Reading.start.move m = .start := rfl
  rw [hstart] at hreads
  unfold parse
  rw [hreads]
  cases ts.foldlM Reading.step .start with
  | error => rfl
  | ok r => exact Reading.finish_move m r

end RelTrace
