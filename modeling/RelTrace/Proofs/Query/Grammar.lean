import RelTrace.Query.Expr
import RelTrace.Query.Token

/-!
# The grammar of queries

Derivations of lists of tokens, stated without the machine that reads them. Joins group to the left
and unions to the right. The tokens of a condition are free but for the delimiter that ends it. A
derivation fixes the whole tree, its spans included.

## Main definitions

* `Derives`: what the tokens of a primary expression, of a chain of joins and of an expression are.
-/

namespace RelTrace

/-- The texts of some tokens, one after another. -/
def Token.joinTexts (tokens : List Token) : String := String.join (tokens.map text)

@[simp] theorem Token.joinTexts_nil : joinTexts [] = "" := by simp [joinTexts]

@[simp] theorem Token.joinTexts_cons (t : Token) (tokens : List Token) :
    joinTexts (t :: tokens) = t.text ++ joinTexts tokens := by
  simp [joinTexts]

@[simp] theorem Token.joinTexts_append (tokens rest : List Token) :
    joinTexts (tokens ++ rest) = joinTexts tokens ++ joinTexts rest := by
  simp [joinTexts]

theorem Token.joinTexts_concat (tokens : List Token) (t : Token) :
    joinTexts (tokens ++ [t]) = joinTexts tokens ++ t.text := by
  simp

namespace Grammar

/-- The nonterminal symbols of the grammar. -/
inductive Nonterminal where
  | primary
  /-- Primary expressions with joins between them. -/
  | joins
  | expression
deriving DecidableEq

/-- Identifiers with commas between them, at least one. -/
inductive Names : List Token → List String → Prop where
  | single {t} (ht : t.kind = .identifier) : Names [t] [t.text]
  | more {ts names c t} (hts : Names ts names) (hc : c.kind = .comma) (ht : t.kind = .identifier) :
      Names (ts ++ [c, t]) (names ++ [t.text])

/-- A list of names between brackets, which may be empty. -/
inductive NameList : List Token → List String → Prop where
  | empty : NameList [] []
  | names {ts names} (hts : Names ts names) : NameList ts names

/-- The tokens of a tree. -/
inductive Derives : Nonterminal → List Token → Expr → Prop where
  | relation {t} (ht : t.kind = .identifier) : Derives .primary [t] (.relation t.text t.span)
  | group {p ts q e} (hp : p.kind = .leftParen) (hts : Derives .expression ts e)
      (hq : q.kind = .rightParen) : Derives .primary (p :: (ts ++ [q])) e
  | projection {o b ns c p ts q names e} (ho : o.kind = .projection) (hb : b.kind = .leftBracket)
      (hns : NameList ns names) (hc : c.kind = .rightBracket) (hp : p.kind = .leftParen)
      (hts : Derives .expression ts e) (hq : q.kind = .rightParen) :
      Derives .primary (o :: b :: (ns ++ c :: p :: (ts ++ [q])))
        (.project names e ⟨o.position, q.stop⟩)
  | selection {o b cs c p ts q e} (ho : o.kind = .selection) (hb : b.kind = .leftBracket)
      (hcs : ∀ t ∈ cs, t.kind ≠ .rightBracket) (hc : c.kind = .rightBracket)
      (hp : p.kind = .leftParen) (hts : Derives .expression ts e) (hq : q.kind = .rightParen) :
      Derives .primary (o :: b :: (cs ++ c :: p :: (ts ++ [q])))
        (.select (Token.joinTexts cs) e ⟨o.position, q.stop⟩)
  | single {ts e} (hts : Derives .primary ts e) : Derives .joins ts e
  | join {ls j u b cs c rs l r} (hl : Derives .joins ls l) (hj : j.kind = .join)
      (hu : u.kind = .underscore) (hb : b.kind = .leftBrace) (hcs : ∀ t ∈ cs, t.kind ≠ .rightBrace)
      (hc : c.kind = .rightBrace) (hr : Derives .primary rs r) :
      Derives .joins (ls ++ j :: u :: b :: (cs ++ c :: rs))
        (.join (Token.joinTexts cs) l r ⟨l.span.start, r.span.stop⟩)
  | joins {ts e} (hts : Derives .joins ts e) : Derives .expression ts e
  | union {ls u rs l r} (hl : Derives .joins ls l) (hu : u.kind = .union)
      (hr : Derives .expression rs r) :
      Derives .expression (ls ++ u :: rs) (.union l r ⟨l.span.start, r.span.stop⟩)

/-- Primary expressions and joins are expressions. -/
theorem Derives.expression {n : Nonterminal} {ts : List Token} {e : Expr} (h : Derives n ts e) :
    Derives .expression ts e := by
  cases n with
  | primary => exact .joins (.single h)
  | joins => exact .joins h
  | expression => exact h

/-- A tree has no more nodes than tokens. -/
theorem Derives.nodeCount_le {n : Nonterminal} {ts : List Token} {e : Expr} (h : Derives n ts e) :
    e.nodeCount ≤ ts.length := by
  induction h with
  | single _ ih | joins _ ih => exact ih
  | relation => exact Nat.le_refl 1
  | group | projection | selection | join | union =>
    simp only [Expr.nodeCount, List.length_cons, List.length_append]
    omega

end Grammar

end RelTrace
