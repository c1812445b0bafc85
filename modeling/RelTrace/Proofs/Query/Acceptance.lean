import RelTrace.Proofs.Query.Reads

/-!
# Acceptance

Every reading records derivations for the tokens that led to it: of the waiting operands, of what
has been opened and of the operand at hand. The invariant holds at the start and each step keeps it,
so an accepted list of tokens is derived by the grammar. With the converse, reading accepts exactly
what the grammar derives, and a list of tokens has at most one tree.

## Main definitions

* `Consumed`: what a reading says about the tokens that led to it.
-/

namespace RelTrace

open Grammar

/-- Left operands of unions, the innermost first, each with its symbol. -/
inductive UnionsRead : List Expr → List Token → Prop where
  | nil : UnionsRead [] []
  | cons {unions ts ls l u} (hts : UnionsRead unions ts) (hl : Derives .joins ls l)
      (hu : u.kind = .union) : UnionsRead (l :: unions) (ts ++ ls ++ [u])

/-- The left operand of a join with its symbol and condition, unless no join waits. -/
inductive JoinRead : Option (Expr × String) → List Token → Prop where
  | none : JoinRead none []
  | some {ls j u b cs c l} (hl : Derives .joins ls l) (hj : j.kind = .join)
      (hu : u.kind = .underscore) (hb : b.kind = .leftBrace) (hcs : ∀ t ∈ cs, t.kind ≠ .rightBrace)
      (hc : c.kind = .rightBrace) :
      JoinRead (some (l, Token.joinTexts cs)) (ls ++ j :: u :: b :: cs ++ [c])

/-- The operands that wait within one pair of parentheses. -/
inductive WaitingRead : Waiting → List Token → Prop where
  | mk {unions join? ts us} (hunions : UnionsRead unions ts) (hjoin : JoinRead join? us) :
      WaitingRead ⟨unions, join?⟩ (ts ++ us)

/-- What stands before an open parenthesis and belongs to it. -/
inductive HeadRead : Enclosure → List Token → Prop where
  | group : HeadRead .group []
  | project {o b ns c names} (ho : o.kind = .projection) (hb : b.kind = .leftBracket)
      (hns : NameList ns names) (hc : c.kind = .rightBracket) :
      HeadRead (.project o.position names) (o :: b :: ns ++ [c])
  | select {o b cs c} (ho : o.kind = .selection) (hb : b.kind = .leftBracket)
      (hcs : ∀ t ∈ cs, t.kind ≠ .rightBracket) (hc : c.kind = .rightBracket) :
      HeadRead (.select o.position (Token.joinTexts cs)) (o :: b :: cs ++ [c])

/-- The open parentheses with what waits around them. -/
inductive OuterRead : List (Enclosure × Waiting) → List Token → Prop where
  | nil : OuterRead [] []
  | cons {outer ts w ws enclosure hs p} (hts : OuterRead outer ts) (hw : WaitingRead w ws)
      (hhs : HeadRead enclosure hs) (hp : p.kind = .leftParen) :
      OuterRead ((enclosure, w) :: outer) (ts ++ ws ++ hs ++ [p])

/-- What has been read of the construct at hand. -/
inductive FocusRead : Focus → List Token → Prop where
  | operand : FocusRead .operand []
  | operator {ts e} (hts : Derives .joins ts e) : FocusRead (.operator e) ts
  | list {o} (ho : o.kind = .projection) : FocusRead (.list o.position) [o]
  | firstName {o b} (ho : o.kind = .projection) (hb : b.kind = .leftBracket) :
      FocusRead (.firstName o.position) [o, b]
  | nextName {o b ns c names} (ho : o.kind = .projection) (hb : b.kind = .leftBracket)
      (hns : Names ns names) (hc : c.kind = .comma) :
      FocusRead (.nextName o.position names) (o :: b :: ns ++ [c])
  | afterName {o b ns names} (ho : o.kind = .projection) (hb : b.kind = .leftBracket)
      (hns : Names ns names) : FocusRead (.afterName o.position names) (o :: b :: ns)
  | condition {o} (ho : o.kind = .selection) : FocusRead (.condition o.position) [o]
  | insideCondition {o b cs} (ho : o.kind = .selection) (hb : b.kind = .leftBracket)
      (hcs : ∀ t ∈ cs, t.kind ≠ .rightBracket) :
      FocusRead (.insideCondition o.position (Token.joinTexts cs)) (o :: b :: cs)
  | parenthesis {enclosure hs} (hhs : HeadRead enclosure hs) : FocusRead (.parenthesis enclosure) hs
  | joinMark {ls j l} (hl : Derives .joins ls l) (hj : j.kind = .join) :
      FocusRead (.joinMark l) (ls ++ [j])
  | joinBrace {ls j u l} (hl : Derives .joins ls l) (hj : j.kind = .join)
      (hu : u.kind = .underscore) : FocusRead (.joinBrace l) (ls ++ [j, u])
  | insideJoin {ls j u b cs l} (hl : Derives .joins ls l) (hj : j.kind = .join)
      (hu : u.kind = .underscore) (hb : b.kind = .leftBrace)
      (hcs : ∀ t ∈ cs, t.kind ≠ .rightBrace) :
      FocusRead (.insideJoin l (Token.joinTexts cs)) (ls ++ j :: u :: b :: cs)

/-- The construct at hand begins with a complete operand, so that no join can wait for one. -/
def Focus.hasOperand : Focus → Bool
  | operator _ | joinMark _ | joinBrace _ | insideJoin _ _ => true
  | _ => false

/-- What a reading says about the tokens that led to it. -/
inductive Consumed : Reading → List Token → Prop where
  | mk {focus waiting outer ts us vs} (houter : OuterRead outer ts)
      (hwaiting : WaitingRead waiting us) (hfocus : FocusRead focus vs)
      (hjoin : focus.hasOperand → waiting.join? = none) :
      Consumed ⟨focus, waiting, outer⟩ (ts ++ us ++ vs)

variable {r s : Reading} {t p q : Token} {ts us vs hs : List Token} {e : Expr} {w : Waiting}
  {outer : List (Enclosure × Waiting)} {enclosure : Enclosure} {f g : Focus}

/-- Nothing is asked of a construct that does not begin with an operand. -/
theorem Focus.imp_of_not_hasOperand {P : Prop} (h : g.hasOperand = false) : g.hasOperand → P :=
  fun hoperand => absurd hoperand (by simp [h])

theorem WaitingRead.empty : WaitingRead .none [] := .mk .nil .none

theorem WaitingRead.unionsRead (h : WaitingRead w us) (hjoin : w.join? = none) :
    UnionsRead w.unions us := by
  obtain ⟨hunions, hread⟩ := h
  subst hjoin
  cases hread
  simpa using hunions

/-- The waiting unions take an expression that stands on their right. -/
theorem WaitingRead.derives (h : WaitingRead w us) (hjoin : w.join? = none)
    (he : Derives .expression vs e) : Derives .expression (us ++ vs) (w.close e) := by
  have hunions := h.unionsRead hjoin
  unfold Waiting.close
  clear h hjoin
  generalize w.unions = unions at hunions
  induction hunions generalizing vs e with
  | nil => exact he
  | cons _ hl hu ih => simpa [Expr.unite] using ih (.union hl hu he)

/-- An expression in parentheses is a primary expression. -/
theorem HeadRead.derives (h : HeadRead enclosure hs) (hp : p.kind = .leftParen)
    (he : Derives .expression ts e) (hq : q.kind = .rightParen) :
    Derives .primary (hs ++ p :: ts ++ [q]) (enclosure.wrap q.stop e) := by
  cases h with
  | group => exact .group hp he hq
  | project ho hb hns hc => simpa [Enclosure.wrap] using Derives.projection ho hb hns hc hp he hq
  | select ho hb hcs hc => simpa [Enclosure.wrap] using Derives.selection ho hb hcs hc hp he hq

namespace Consumed

theorem atOperand (houter : OuterRead outer ts) (hw : WaitingRead w us) :
    Consumed ⟨.operand, w, outer⟩ (ts ++ us) := by
  simpa using Consumed.mk houter hw .operand (Focus.imp_of_not_hasOperand rfl)

theorem start : Consumed .start [] := .atOperand .nil .empty

/-- One more token of the construct at hand. -/
theorem moveTo (houter : OuterRead outer ts) (hw : WaitingRead w us) (hg : FocusRead g (vs ++ [t]))
    (hjoin : g.hasOperand → w.join? = none) :
    Consumed (Reading.moveTo ⟨f, w, outer⟩ g) (ts ++ us ++ vs ++ [t]) := by
  simpa [Reading.moveTo] using Consumed.mk houter hw hg hjoin

theorem moveWithin (houter : OuterRead outer ts) (hw : WaitingRead w us)
    (hg : FocusRead g (vs ++ [t])) (h : g.hasOperand = false) :
    Consumed (Reading.moveTo ⟨f, w, outer⟩ g) (ts ++ us ++ vs ++ [t]) :=
  .moveTo houter hw hg (Focus.imp_of_not_hasOperand h)

/-- What stands before an open parenthesis is complete. -/
theorem openParen (houter : OuterRead outer ts) (hw : WaitingRead w us)
    (hhs : HeadRead enclosure hs) (hp : p.kind = .leftParen) :
    Consumed (Reading.openParen ⟨f, w, outer⟩ enclosure) (ts ++ us ++ hs ++ [p]) := by
  simpa [Reading.openParen] using Consumed.atOperand (.cons houter hw hhs hp) .empty

/-- A complete operand goes to the join that waits for it, if there is one. -/
theorem complete (houter : OuterRead outer ts) (hw : WaitingRead w us)
    (he : Derives .primary vs e) : Consumed (.complete e w outer) (ts ++ us ++ vs) := by
  obtain ⟨hunions, hjoin⟩ := hw
  cases hjoin with
  | none => exact .mk houter (.mk hunions .none) (.operator (.single he)) fun _ => rfl
  | some hl hj hu hb hcs hc =>
    have hjoined := Derives.join hl hj hu hb hcs hc he
    simpa [Reading.complete, Waiting.take, Expr.joinOn] using
      Consumed.mk houter (.mk hunions .none) (.operator hjoined) fun _ => rfl

theorem stepOperand (houter : OuterRead outer ts) (hw : WaitingRead w us)
    (hs : Reading.stepOperand ⟨.operand, w, outer⟩ t = .ok s) : Consumed s (ts ++ us ++ [t]) := by
  unfold Reading.stepOperand at hs
  split at hs
  case h_1 ht =>
    cases hs
    exact .mk houter hw (.list ht) (Focus.imp_of_not_hasOperand rfl)
  case h_2 ht =>
    cases hs
    exact .mk houter hw (.condition ht) (Focus.imp_of_not_hasOperand rfl)
  case h_3 ht =>
    cases hs
    simpa using Consumed.openParen houter hw .group ht
  case h_4 ht =>
    cases hs
    exact .complete houter hw (.relation ht)
  case h_5 => simp at hs

theorem stepOperator (houter : OuterRead outer ts) (hw : WaitingRead w us)
    (he : Derives .joins vs e) (hjoin : w.join? = none)
    (hs : Reading.stepOperator ⟨.operator e, w, outer⟩ e t = .ok s) :
    Consumed s (ts ++ us ++ vs ++ [t]) := by
  unfold Reading.stepOperator at hs
  split at hs
  case h_1 ht =>
    cases hs
    exact .moveTo houter hw (.joinMark he ht) fun _ => hjoin
  case h_2 ht =>
    cases hs
    have hunions := (hw.unionsRead hjoin).cons he ht
    simpa [hjoin] using Consumed.atOperand houter (.mk hunions .none)
  case h_3 =>
    cases houter with
    | nil => simp at hs
    | cons houter hw' hhs hp =>
      obtain ⟨ht, rfl⟩ := Reading.expect_eq_ok_iff.mp hs
      have hprimary := hhs.derives hp (hw.derives hjoin (.joins he)) ht
      simpa using Consumed.complete houter hw' hprimary

/-- Each step keeps the invariant. -/
theorem step (h : Consumed r ts) (hs : r.step t = .ok s) : Consumed s (ts ++ [t]) := by
  obtain ⟨houter, hw, hfocus, hjoin⟩ := h
  cases hfocus with
  | operand => simpa using Consumed.stepOperand houter hw hs
  | operator he => exact .stepOperator houter hw he (hjoin rfl) hs
  | list ho =>
    obtain ⟨ht, rfl⟩ := Reading.expect_eq_ok_iff.mp hs
    exact .moveWithin houter hw (.firstName ho ht) rfl
  | firstName ho hb =>
    simp only [Reading.step] at hs
    split at hs
    case isTrue ht =>
      cases hs
      exact .moveWithin houter hw (.parenthesis (.project ho hb .empty ht)) rfl
    case isFalse =>
      obtain ⟨ht, rfl⟩ := Reading.expect_eq_ok_iff.mp hs
      exact .moveWithin houter hw (.afterName ho hb (.single ht)) rfl
  | nextName ho hb hns hc =>
    obtain ⟨ht, rfl⟩ := Reading.expect_eq_ok_iff.mp hs
    have hname := FocusRead.afterName ho hb (hns.more hc ht)
    exact .moveWithin houter hw (by simpa using hname) rfl
  | afterName ho hb hns =>
    simp only [Reading.step] at hs
    split at hs
    case isTrue ht =>
      cases hs
      exact .moveWithin houter hw (.nextName ho hb hns ht) rfl
    case isFalse =>
      obtain ⟨ht, rfl⟩ := Reading.expect_eq_ok_iff.mp hs
      exact .moveWithin houter hw (.parenthesis (.project ho hb (.names hns) ht)) rfl
  | condition ho =>
    obtain ⟨ht, rfl⟩ := Reading.expect_eq_ok_iff.mp hs
    exact .moveWithin houter hw (.insideCondition ho ht (List.forall_mem_nil _)) rfl
  | insideCondition ho hb hcs =>
    simp only [Reading.step] at hs
    split at hs
    case isTrue ht =>
      cases hs
      exact .moveWithin houter hw (.parenthesis (.select ho hb hcs ht)) rfl
    case isFalse ht =>
      cases hs
      have hcs := List.forall_mem_append.mpr ⟨hcs, List.forall_mem_singleton.mpr ht⟩
      rw [← Token.joinTexts_concat]
      exact .moveWithin houter hw (.insideCondition ho hb hcs) rfl
  | parenthesis hhs =>
    obtain ⟨ht, rfl⟩ := Reading.expect_eq_ok_iff.mp hs
    exact .openParen houter hw hhs ht
  | joinMark hl hj =>
    obtain ⟨ht, rfl⟩ := Reading.expect_eq_ok_iff.mp hs
    have hbrace := FocusRead.joinBrace hl hj ht
    exact .moveTo houter hw (by simpa using hbrace) fun _ => hjoin rfl
  | joinBrace hl hj hu =>
    obtain ⟨ht, rfl⟩ := Reading.expect_eq_ok_iff.mp hs
    have hinside := FocusRead.insideJoin hl hj hu ht (List.forall_mem_nil _)
    exact .moveTo houter hw (by simpa using hinside) fun _ => hjoin rfl
  | insideJoin hl hj hu hb hcs =>
    simp only [Reading.step] at hs
    split at hs
    case isTrue ht =>
      cases hs
      have hwaiting := WaitingRead.mk (hw.unionsRead (hjoin rfl)) (.some hl hj hu hb hcs ht)
      simpa using Consumed.atOperand houter hwaiting
    case isFalse ht =>
      cases hs
      have hcs := List.forall_mem_append.mpr ⟨hcs, List.forall_mem_singleton.mpr ht⟩
      have hinside := FocusRead.insideJoin hl hj hu hb hcs
      rw [← Token.joinTexts_concat]
      exact .moveTo houter hw (by simpa using hinside) fun _ => hjoin rfl

/-- A whole run keeps the invariant. -/
theorem reads (h : Consumed r ts) (hs : Reads r us s) : Consumed s (ts ++ us) := by
  induction us generalizing r ts with
  | nil =>
    cases hs
    simpa using h
  | cons t us ih =>
    obtain ⟨m, hm, hrest⟩ := Reads.cons_iff.mp hs
    simpa using ih (h.step hm) hrest

end Consumed

/-- Reading accepts exactly what the grammar derives. -/
theorem parse_eq_ok_iff_derives : parse ts = .ok e ↔ Derives .expression ts e := by
  rw [parse_eq_ok_iff_reads]
  constructor
  · rintro ⟨⟨focus, w, outer⟩, hread, hfinish⟩
    obtain ⟨left, rfl, rfl, rfl⟩ := Reading.finish_eq_ok_iff.mp hfinish
    obtain ⟨houter, hw, hfocus, hjoin⟩ := Consumed.start.reads hread
    cases houter
    cases hfocus with
    | operator hleft => simpa using hw.derives (hjoin rfl) (.joins hleft)
  · intro h
    obtain ⟨left, unions, hread, hclose⟩ := h.leads [] []
    exact ⟨_, hread, Reading.finish_eq_ok_iff.mpr ⟨left, rfl, rfl, hclose⟩⟩

/-- The grammar is unambiguous, and reading finds the one tree of each list of tokens. -/
theorem parse_finds_the_derived_tree (tokens : List Token) :
    (∀ e, parse tokens = .ok e ↔ Derives .expression tokens e) ∧
      ∀ e₁ e₂, Derives .expression tokens e₁ → Derives .expression tokens e₂ → e₁ = e₂ := by
  refine ⟨fun e => parse_eq_ok_iff_derives, fun e₁ e₂ h₁ h₂ => ?_⟩
  rw [← parse_eq_ok_iff_derives] at h₁ h₂
  exact Except.ok.inj (h₁.symm.trans h₂)

theorem parse_finds_the_derived_tree_union :
    ∃ e, Derives .expression (tokenize "A ⋈_\x7bx=]\x7d B ∪ C ∪ D") e ∧
      ∀ e', Derives .expression (tokenize "A ⋈_\x7bx=]\x7d B ∪ C ∪ D") e' → e' = e := by
  have h : parse (tokenize "A ⋈_\x7bx=]\x7d B ∪ C ∪ D") =
      .ok (.union (.join "x=]" (.relation "A" ⟨0, 1⟩) (.relation "B" ⟨10, 11⟩) ⟨0, 11⟩)
        (.union (.relation "C" ⟨14, 15⟩) (.relation "D" ⟨18, 19⟩) ⟨14, 19⟩) ⟨0, 19⟩) := rfl
  have hderives := ((parse_finds_the_derived_tree _).1 _).mp h
  exact ⟨_, hderives, fun e' h' => (parse_finds_the_derived_tree _).2 e' _ h' hderives⟩

end RelTrace
