import RelTrace.Proofs.Query.Grammar
import RelTrace.Query.Reading

/-!
# Reading what the grammar derives

Reading several tokens is reading them one after another. What the grammar derives is read to the
end from any place where it may stand, and leaves the operands that wait around it alone.

## Main definitions

* `Reads`: several tokens lead from one reading to another.
-/

namespace RelTrace

open Grammar

/-- The tokens lead from one reading to another. -/
def Reads (r : Reading) (tokens : List Token) (s : Reading) : Prop :=
  tokens.foldlM Reading.step r = .ok s

namespace Reads

variable {r s : Reading} {t : Token} {ts us : List Token}

theorem nil (r : Reading) : Reads r [] r := rfl

theorem cons_iff : Reads r (t :: ts) s ↔ ∃ m, r.step t = .ok m ∧ Reads m ts s := by
  simp only [Reads, List.foldlM_cons]
  cases r.step t <;> simp [bind, Except.bind]

theorem cons {m : Reading} (h : r.step t = .ok m) (hs : Reads m ts s) : Reads r (t :: ts) s :=
  cons_iff.mpr ⟨m, h, hs⟩

theorem append_iff : Reads r (ts ++ us) s ↔ ∃ m, Reads r ts m ∧ Reads m us s := by
  induction ts generalizing r with
  | nil => simp [Reads, pure, Except.pure]
  | cons t ts ih =>
    simp only [List.cons_append, cons_iff, ih]
    constructor
    · rintro ⟨m, hm, n, hn, hs⟩
      exact ⟨n, ⟨m, hm, hn⟩, hs⟩
    · rintro ⟨n, ⟨m, hm, hn⟩, hs⟩
      exact ⟨m, hm, n, hn, hs⟩

theorem append {m : Reading} (h : Reads r ts m) (hs : Reads m us s) : Reads r (ts ++ us) s :=
  append_iff.mpr ⟨m, h, hs⟩

theorem concat_iff : Reads r (ts ++ [t]) s ↔ ∃ m, Reads r ts m ∧ m.step t = .ok s := by
  rw [append_iff]
  simp only [cons_iff]
  simp [Reads, pure, Except.pure]

theorem concat {m : Reading} (h : Reads r ts m) (hs : m.step t = .ok s) : Reads r (ts ++ [t]) s :=
  concat_iff.mpr ⟨m, h, hs⟩

end Reads

/-- The result of reading a whole list of tokens. -/
theorem parse_eq_ok_iff_reads {ts : List Token} {e : Expr} :
    parse ts = .ok e ↔ ∃ r, Reads .start ts r ∧ r.finish = .ok e := by
  simp only [parse, Reads]
  cases ts.foldlM Reading.step .start <;> simp [bind, Except.bind]

theorem Reading.finish_eq_ok_iff {r : Reading} {e : Expr} :
    r.finish = .ok e ↔
      ∃ left, r.focus = .operator left ∧ r.outer = [] ∧ r.waiting.close left = e := by
  unfold Reading.finish
  split <;> grind

@[simp] theorem Reading.refuse_ne_ok {r s : Reading} {t : Token} : r.refuse t ≠ .ok s := by
  simp [Reading.refuse]

@[simp] theorem Reading.expect_eq_ok_iff {r next s : Reading} {kind : Token.Kind} {t : Token} :
    r.expect kind t next = .ok s ↔ t.kind = kind ∧ next = s := by
  unfold Reading.expect
  split <;> simp_all

variable {w : Waiting} {outer : List (Enclosure × Waiting)}

/-- Tokens other than the delimiter of a condition become its text. -/
theorem Reads.absorb (inside : String → Reading) {stop : Token.Kind} {cs : List Token}
    (hstep : ∀ text t, t.kind ≠ stop → (inside text).step t = .ok (inside (text ++ t.text)))
    (hcs : ∀ t ∈ cs, t.kind ≠ stop) : Reads (inside "") cs (inside (Token.joinTexts cs)) := by
  suffices h : ∀ text, Reads (inside text) cs (inside (text ++ Token.joinTexts cs)) by
    simpa using h ""
  induction cs with
  | nil => exact fun text => by simpa using Reads.nil (inside text)
  | cons c cs ih =>
    intro text
    refine .cons (hstep text c (hcs c (by simp))) ?_
    have hrest := ih (fun t ht => hcs t (by simp [ht])) (text ++ c.text)
    simpa [String.append_assoc] using hrest

theorem Grammar.Names.reads {start : Nat} {ns : List Token} {names : List String}
    (h : Names ns names) :
    Reads ⟨.firstName start, w, outer⟩ ns ⟨.afterName start names, w, outer⟩ := by
  induction h with
  | single ht => exact .cons (by simp [Reading.step, Reading.moveTo, ht]) (.nil _)
  | @more ts names c t _ hc ht ih =>
    refine ih.append (.cons (m := ⟨.nextName start names, w, outer⟩) ?_ (.cons ?_ (.nil _)))
    · simp [Reading.step, Reading.moveTo, hc]
    · simp [Reading.step, Reading.moveTo, ht]

theorem Grammar.NameList.reads {start : Nat} {ns : List Token} {names : List String} {c : Token}
    (h : NameList ns names) (hc : c.kind = .rightBracket) :
    Reads ⟨.firstName start, w, outer⟩ (ns ++ [c])
      ⟨.parenthesis (.project start names), w, outer⟩ := by
  cases h with
  | empty => exact .concat (.nil _) (by simp [Reading.step, Reading.moveTo, hc])
  | names hns =>
    exact hns.reads.concat (by simp [Reading.step, Reading.moveTo, hc])

/-- Where the tokens of a nonterminal symbol lead. A primary expression completes an operand; a
chain of joins stands where no join waits; the unions of an expression are left waiting. -/
def Grammar.Nonterminal.Leads (ts : List Token) (e : Expr) : Nonterminal → Prop
  | .primary => ∀ w outer, Reads ⟨.operand, w, outer⟩ ts (.complete e w outer)
  | .joins => ∀ unions outer,
    Reads ⟨.operand, ⟨unions, none⟩, outer⟩ ts ⟨.operator e, ⟨unions, none⟩, outer⟩
  | .expression => ∀ unions outer, ∃ left unions',
    Reads ⟨.operand, ⟨unions, none⟩, outer⟩ ts ⟨.operator left, ⟨unions', none⟩, outer⟩ ∧
      Waiting.close ⟨unions', none⟩ left = Waiting.close ⟨unions, none⟩ e

/-- After an operand, the symbol of a join with its condition leaves the operand waiting. -/
theorem Reads.joinOperator {j u b c : Token} {cs rs : List Token} {l : Expr} {s : Reading}
    (hj : j.kind = .join) (hu : u.kind = .underscore) (hb : b.kind = .leftBrace)
    (hcs : ∀ t ∈ cs, t.kind ≠ .rightBrace) (hc : c.kind = .rightBrace)
    (hrs : Reads ⟨.operand, { w with join? := some (l, Token.joinTexts cs) }, outer⟩ rs s) :
    Reads ⟨.operator l, w, outer⟩ (j :: u :: b :: (cs ++ c :: rs)) s := by
  have hinside : Reads ⟨.insideJoin l "", w, outer⟩ cs
      ⟨.insideJoin l (Token.joinTexts cs), w, outer⟩ := by
    refine Reads.absorb (fun text => ⟨.insideJoin l text, w, outer⟩) ?_ hcs
    intro text t ht
    simp [Reading.step, Reading.moveTo, ht]
  refine .cons (m := ⟨.joinMark l, w, outer⟩) ?_ (.cons (m := ⟨.joinBrace l, w, outer⟩) ?_
    (.cons ?_ (hinside.append (.cons ?_ hrs))))
  · simp [Reading.step, Reading.stepOperator, Reading.moveTo, hj]
  · simp [Reading.step, Reading.moveTo, hu]
  · simp [Reading.step, Reading.moveTo, hb]
  · simp [Reading.step, hc]

/-- The symbol of a projection, its list of names and a parenthesis wait for the operand. -/
theorem Reads.projectionHead {o b c p : Token} {ns : List Token} {names : List String}
    (ho : o.kind = .projection) (hb : b.kind = .leftBracket) (hns : NameList ns names)
    (hc : c.kind = .rightBracket) (hp : p.kind = .leftParen) :
    Reads ⟨.operand, w, outer⟩ (o :: b :: (ns ++ [c] ++ [p]))
      ⟨.operand, .none, (.project o.position names, w) :: outer⟩ := by
  refine .cons (m := ⟨.list o.position, w, outer⟩) ?_
    (.cons (m := ⟨.firstName o.position, w, outer⟩) ?_ ((hns.reads hc).concat ?_))
  · simp [Reading.step, Reading.stepOperand, Reading.moveTo, ho]
  · simp [Reading.step, Reading.moveTo, hb]
  · simp [Reading.step, Reading.openParen, hp]

/-- The symbol of a selection, its condition and a parenthesis wait for the operand. -/
theorem Reads.selectionHead {o b c p : Token} {cs : List Token} (ho : o.kind = .selection)
    (hb : b.kind = .leftBracket) (hcs : ∀ t ∈ cs, t.kind ≠ .rightBracket)
    (hc : c.kind = .rightBracket) (hp : p.kind = .leftParen) :
    Reads ⟨.operand, w, outer⟩ (o :: b :: (cs ++ [c] ++ [p]))
      ⟨.operand, .none, (.select o.position (Token.joinTexts cs), w) :: outer⟩ := by
  have hinside : Reads ⟨.insideCondition o.position "", w, outer⟩ cs
      ⟨.insideCondition o.position (Token.joinTexts cs), w, outer⟩ := by
    refine Reads.absorb (fun text => ⟨.insideCondition o.position text, w, outer⟩) ?_ hcs
    intro text t ht
    simp [Reading.step, Reading.moveTo, ht]
  refine .cons (m := ⟨.condition o.position, w, outer⟩) ?_ (.cons ?_
    ((hinside.concat (s := ⟨.parenthesis (.select o.position (Token.joinTexts cs)), w, outer⟩)
      ?_).concat ?_))
  · simp [Reading.step, Reading.stepOperand, Reading.moveTo, ho]
  · simp [Reading.step, Reading.moveTo, hb]
  · simp [Reading.step, Reading.moveTo, hc]
  · simp [Reading.step, Reading.openParen, hp]

/-- An expression in parentheses is an operand. -/
theorem Reads.enclosed {r : Reading} {enclosure : Enclosure} {os ts : List Token} {q : Token}
    {e : Expr} (hos : Reads r os ⟨.operand, .none, (enclosure, w) :: outer⟩)
    (hts : Nonterminal.Leads ts e .expression) (hq : q.kind = .rightParen) :
    Reads r (os ++ ts ++ [q]) (.complete (enclosure.wrap q.stop e) w outer) := by
  obtain ⟨left, unions, hread, hclose⟩ := hts [] ((enclosure, w) :: outer)
  refine (hos.append hread).concat ?_
  simp [Reading.step, Reading.stepOperator, hq, hclose]
  rfl

theorem Grammar.Derives.leads {n : Nonterminal} {ts : List Token} {e : Expr}
    (h : Derives n ts e) : n.Leads ts e := by
  induction h with
  | relation ht =>
    intro w outer
    exact .cons (by simp [Reading.step, Reading.stepOperand, ht]) (.nil _)
  | @group p ts q e hp _ hq ih =>
    intro w outer
    have hopen : Reads ⟨.operand, w, outer⟩ [p] ⟨.operand, .none, (.group, w) :: outer⟩ := by
      refine .cons ?_ (.nil _)
      simp [Reading.step, Reading.stepOperand, Reading.openParen, hp]
    exact hopen.enclosed ih hq
  | @projection o b ns c p ts q names e ho hb hns hc hp _ hq ih =>
    intro w outer
    simpa [Enclosure.wrap] using (Reads.projectionHead ho hb hns hc hp).enclosed ih hq
  | @selection o b cs c p ts q e ho hb hcs hc hp _ hq ih =>
    intro w outer
    simpa [Enclosure.wrap] using (Reads.selectionHead ho hb hcs hc hp).enclosed ih hq
  | single _ ih => exact fun unions outer => ih ⟨unions, none⟩ outer
  | @join ls j u b cs c rs l r _ hj hu hb hcs hc _ ihl ihr =>
    intro unions outer
    have hright := ihr ⟨unions, some (l, Token.joinTexts cs)⟩ outer
    exact (ihl unions outer).append (.joinOperator hj hu hb hcs hc hright)
  | joins _ ih => exact fun unions outer => ⟨_, unions, ih unions outer, rfl⟩
  | @union ls u rs l r _ hu _ ihl ihr =>
    intro unions outer
    obtain ⟨left, unions', hread, hclose⟩ := ihr (l :: unions) outer
    refine ⟨left, unions', (ihl unions outer).append (.cons ?_ hread), ?_⟩
    · simp [Reading.step, Reading.stepOperator, hu]
    · simpa [Waiting.close, Expr.unite] using hclose

end RelTrace
