import RelTrace.Proofs.Query.Reads

/-!
# Where reading fails

Whatever has been read can still become a query: in every place of the grammar a token of the kind
that is said to be expected leads on, and each such token leaves fewer of them missing. So reading
stops at the first token after which nothing helps any more, and it names a token that would have
been in order.

## Main definitions

* `Viable`: tokens that some continuation makes a query.
* `FirstImpossible`: the token after which the tokens are no longer viable.
* `Reading.missing`: how many tokens a reading needs, at most, to become a query.
-/

namespace RelTrace

/-- Some continuation of the tokens is a query. -/
def Viable (ts : List Token) : Prop := ∃ us e, parse (ts ++ us) = .ok e

/-- The token at a place after which the tokens are no longer viable, though they were before it. -/
structure FirstImpossible (ts : List Token) (i : Nat) (t : Token) : Prop where
  getElem? : ts[i]? = some t
  viable : Viable (ts.take i)
  not_viable : ¬ Viable (ts.take (i + 1))

/-- The kind of a token that meets the expectation. An expression may begin with a name. -/
def Expected.kind : Expected → Token.Kind
  | token kind => kind
  | expression => .identifier

/-- How many tokens complete the construct at hand: after an operand none, before one a name. -/
def Focus.missing : Focus → Nat
  | operator _ => 0
  | operand => 1
  | insideJoin _ _ => 2
  | joinBrace _ | parenthesis _ => 3
  | joinMark _ | afterName _ _ | insideCondition _ _ => 4
  | firstName _ | nextName _ _ | condition _ => 5
  | list _ => 6

/-- How many tokens complete the construct at hand and close all parentheses. -/
def Reading.missing (r : Reading) : Nat := r.focus.missing + r.outer.length

variable {r s : Reading} {t u : Token} {ts us : List Token} {e : Expr} {err : ParseError}

namespace Reading

@[simp] theorem missing_complete (e : Expr) (w : Waiting) (outer : List (Enclosure × Waiting)) :
    (complete e w outer).missing = outer.length := by
  simp [complete, missing, Focus.missing]

theorem finish_ne_ok (h : r.finish = .error err) (e : Expr) : r.finish ≠ .ok e := by
  simp [h]

/-- A token that has to come leads on. -/
theorem exists_step_of_expect {next : Reading} {kind : Token.Kind}
    (hstep : r.step t = r.expect kind t next) (ht : t.kind = kind)
    (hless : next.missing < r.missing) : ∃ s, r.step t = .ok s ∧ s.missing < r.missing :=
  ⟨next, hstep.trans (expect_eq_ok_iff.mpr ⟨ht, rfl⟩), hless⟩

/-- A reading that is no query yet goes on with every token of the expected kind, and then needs
fewer tokens. -/
theorem exists_step_of_expected (hr : ∀ e, r.finish ≠ .ok e)
    (ht : t.kind = r.focus.expected.kind) : ∃ s, r.step t = .ok s ∧ s.missing < r.missing := by
  obtain ⟨focus, w, outer⟩ := r
  cases focus with
  | operand =>
    replace ht : t.kind = .identifier := ht
    refine ⟨complete (.relation t.text t.span) w outer, ?_, ?_⟩
    · simp [step, stepOperand, ht]
    · rw [missing_complete]
      simp [missing, Focus.missing]
  | operator left =>
    replace ht : t.kind = .rightParen := ht
    cases outer with
    | nil => exact absurd rfl (hr (w.close left))
    | cons opened outer =>
      obtain ⟨enclosure, around⟩ := opened
      refine ⟨complete (enclosure.wrap t.stop (w.close left)) around outer, ?_, ?_⟩
      · simp [step, stepOperator, ht]
      · rw [missing_complete]
        simp [missing, Focus.missing]
  | firstName start =>
    replace ht : t.kind = .identifier := ht
    refine ⟨moveTo ⟨.firstName start, w, outer⟩ (.afterName start [t.text]), ?_, ?_⟩
    · simp [step, ht]
    · simp [missing, Focus.missing, moveTo]
  | afterName start names =>
    replace ht : t.kind = .rightBracket := ht
    refine ⟨moveTo ⟨.afterName start names, w, outer⟩ (.parenthesis (.project start names)), ?_, ?_⟩
    · simp [step, ht]
    · simp [missing, Focus.missing, moveTo]
  | insideCondition start text =>
    replace ht : t.kind = .rightBracket := ht
    refine ⟨moveTo ⟨.insideCondition start text, w, outer⟩ (.parenthesis (.select start text)),
      ?_, ?_⟩
    · simp [step, ht]
    · simp [missing, Focus.missing, moveTo]
  | insideJoin left text =>
    replace ht : t.kind = .rightBrace := ht
    refine ⟨⟨.operand, { w with join? := some (left, text) }, outer⟩, ?_, ?_⟩
    · simp [step, ht]
    · simp [missing, Focus.missing]
  | parenthesis enclosure =>
    refine exists_step_of_expect rfl ht ?_
    simp only [missing, Focus.missing, openParen, List.length_cons]
    omega
  | list | nextName | condition | joinMark | joinBrace =>
    refine exists_step_of_expect rfl ht ?_
    simp [missing, Focus.missing, moveTo]

/-- Every reading can still become a query. -/
theorem exists_completion (r : Reading) : ∃ us s e, Reads r us s ∧ s.finish = .ok e := by
  induction hn : r.missing using Nat.strongRecOn generalizing r with
  | ind n ih =>
    cases hr : r.finish with
    | ok e => exact ⟨[], r, e, .nil r, hr⟩
    | error err =>
      -- Any token of the expected kind will do; its text and its place do not matter.
      have ht : (⟨r.focus.expected.kind, "", 0⟩ : Token).kind = r.focus.expected.kind := rfl
      obtain ⟨m, hm, hless⟩ := exists_step_of_expected (finish_ne_ok hr) ht
      obtain ⟨us, s, e, hreads, hfinish⟩ := ih m.missing (hn ▸ hless) m rfl
      exact ⟨_ :: us, s, e, .cons hm hreads, hfinish⟩

theorem expect_eq_error {next : Reading} {kind : Token.Kind}
    (h : r.expect kind t next = .error err) :
    err = .unexpectedToken r.focus.expected t.kind t.position := by
  unfold expect at h
  split at h
  · cases h
  · exact (Except.error.inj h).symm

/-- A token is refused where something else has to come, and trails where a query may end. -/
theorem step_eq_error (h : r.step t = .error err) :
    (∀ e, r.finish ≠ .ok e) ∧ err = .unexpectedToken r.focus.expected t.kind t.position ∨
      (∃ e, r.finish = .ok e) ∧ err = .trailingInput t.kind t.position := by
  obtain ⟨focus, w, outer⟩ := r
  cases focus with
  | operand =>
    refine .inl ⟨finish_ne_ok rfl, ?_⟩
    simp only [step, stepOperand] at h
    split at h
    case h_5 => exact (Except.error.inj h).symm
    all_goals cases h
  | operator left =>
    simp only [step, stepOperator] at h
    split at h
    case h_3 =>
      cases outer with
      | nil => exact .inr ⟨⟨_, rfl⟩, (Except.error.inj h).symm⟩
      | cons opened outer => exact .inl ⟨finish_ne_ok rfl, expect_eq_error h⟩
    all_goals cases h
  | list | nextName | condition | parenthesis | joinMark | joinBrace =>
    exact .inl ⟨finish_ne_ok rfl, expect_eq_error h⟩
  | firstName | afterName =>
    refine .inl ⟨finish_ne_ok rfl, ?_⟩
    simp only [step] at h
    split at h
    · cases h
    · exact expect_eq_error h
  | insideCondition | insideJoin =>
    simp only [step] at h
    split at h <;> cases h

theorem finish_eq_error (h : r.finish = .error err) : err = .unexpectedEnd r.focus.expected := by
  unfold finish at h
  split at h
  · cases h
  · exact (Except.error.inj h).symm

end Reading

/-- Tokens are viable as long as all of them can be read. -/
theorem viable_iff_reads : Viable ts ↔ ∃ r, Reads .start ts r := by
  constructor
  · rintro ⟨us, e, h⟩
    obtain ⟨s, hs, -⟩ := parse_eq_ok_iff_reads.mp h
    obtain ⟨r, hr, -⟩ := Reads.append_iff.mp hs
    exact ⟨r, hr⟩
  · rintro ⟨r, hr⟩
    obtain ⟨us, s, e, hs, hfinish⟩ := r.exists_completion
    exact ⟨us, e, parse_eq_ok_iff_reads.mpr ⟨s, hr.append hs, hfinish⟩⟩

/-- An error of reading is met at one token, after all tokens before it have been read. -/
theorem exists_step_eq_error (h : ts.foldlM Reading.step r = .error err) :
    ∃ before t after s, ts = before ++ t :: after ∧ Reads r before s ∧ s.step t = .error err := by
  induction ts generalizing r with
  | nil => cases h
  | cons t ts ih =>
    rw [List.foldlM_cons] at h
    cases hstep : r.step t with
    | error =>
      rw [hstep] at h
      exact ⟨[], t, ts, r, rfl, .nil r, hstep.trans h⟩
    | ok m =>
      rw [hstep] at h
      obtain ⟨before, u, after, s, rfl, hreads, hs⟩ := ih h
      exact ⟨t :: before, u, after, s, rfl, .cons hstep hreads, hs⟩

/-- A query is refused at one of its tokens, or at its end. -/
theorem parse_eq_error (h : parse ts = .error err) :
    (∃ before t after r, ts = before ++ t :: after ∧ Reads .start before r ∧
        r.step t = .error err) ∨
      ∃ r, Reads .start ts r ∧ r.finish = .error err := by
  unfold parse at h
  cases hreads : ts.foldlM Reading.step .start with
  | error =>
    rw [hreads] at h
    cases h
    exact .inl (exists_step_eq_error hreads)
  | ok r =>
    rw [hreads] at h
    exact .inr ⟨r, hreads, h⟩

/-- A token that cannot be read is the first impossible one. -/
theorem firstImpossible_of_step_eq_error {before after : List Token}
    (hreads : Reads .start before r) (hstep : r.step t = .error err) :
    FirstImpossible (before ++ t :: after) before.length t := by
  refine ⟨by simp, ?_, ?_⟩
  · rw [List.take_left]
    exact viable_iff_reads.mpr ⟨r, hreads⟩
  · have htake : (before ++ t :: after).take (before.length + 1) = before ++ [t] := by
      simp [List.take_append, List.take_of_length_le]
    rw [htake, viable_iff_reads]
    rintro ⟨s, hs⟩
    obtain ⟨m, hm, hms⟩ := Reads.concat_iff.mp hs
    obtain rfl : m = r := Except.ok.inj (hm.symm.trans hreads)
    rw [hstep] at hms
    cases hms

/-- Tokens that are no query yet stay viable with a token of the expected kind. -/
theorem viable_concat_of_expected (hreads : Reads .start ts r) (hr : ∀ e, r.finish ≠ .ok e)
    (hu : u.kind = r.focus.expected.kind) : Viable (ts ++ [u]) := by
  obtain ⟨s, hs, -⟩ := Reading.exists_step_of_expected hr hu
  exact viable_iff_reads.mpr ⟨s, hreads.concat hs⟩

theorem exists_firstImpossible_of_unexpectedToken {expected : Expected} {found : Token.Kind}
    {position : Nat} (h : parse ts = .error (.unexpectedToken expected found position)) :
    ∃ i t, FirstImpossible ts i t ∧ t.kind = found ∧ t.position = position ∧
      ∀ u : Token, u.kind = expected.kind → Viable (ts.take i ++ [u]) := by
  rcases parse_eq_error h with ⟨before, t, after, r, rfl, hreads, hstep⟩ | ⟨r, -, hfinish⟩
  · rcases Reading.step_eq_error hstep with ⟨hr, herr⟩ | ⟨-, herr⟩ <;> cases herr
    refine ⟨before.length, t, firstImpossible_of_step_eq_error hreads hstep, rfl, rfl, ?_⟩
    intro u hu
    rw [List.take_left]
    exact viable_concat_of_expected hreads hr hu
  · cases Reading.finish_eq_error hfinish

theorem exists_firstImpossible_of_trailingInput {found : Token.Kind} {position : Nat}
    (h : parse ts = .error (.trailingInput found position)) :
    ∃ i t, FirstImpossible ts i t ∧ t.kind = found ∧ t.position = position ∧
      ∃ e, parse (ts.take i) = .ok e := by
  rcases parse_eq_error h with ⟨before, t, after, r, rfl, hreads, hstep⟩ | ⟨r, -, hfinish⟩
  · rcases Reading.step_eq_error hstep with ⟨-, herr⟩ | ⟨⟨e, he⟩, herr⟩ <;> cases herr
    refine ⟨before.length, t, firstImpossible_of_step_eq_error hreads hstep, rfl, rfl, e, ?_⟩
    rw [List.take_left]
    exact parse_eq_ok_iff_reads.mpr ⟨r, hreads, he⟩
  · cases Reading.finish_eq_error hfinish

/-- All tokens have been read if the end is what is unexpected. -/
theorem exists_reads_of_unexpectedEnd {expected : Expected}
    (h : parse ts = .error (.unexpectedEnd expected)) :
    ∃ r, Reads .start ts r ∧ (∀ e, r.finish ≠ .ok e) ∧ expected = r.focus.expected := by
  rcases parse_eq_error h with ⟨before, t, after, r, rfl, -, hstep⟩ | ⟨r, hreads, hfinish⟩
  · rcases Reading.step_eq_error hstep with ⟨-, herr⟩ | ⟨-, herr⟩ <;> cases herr
  · cases Reading.finish_eq_error hfinish
    exact ⟨r, hreads, Reading.finish_ne_ok hfinish, rfl⟩

theorem unexpectedEnd_iff :
    (∃ expected, parse ts = .error (.unexpectedEnd expected)) ↔
      Viable ts ∧ ∀ e, parse ts ≠ .ok e := by
  constructor
  · rintro ⟨expected, h⟩
    obtain ⟨r, hreads, -, -⟩ := exists_reads_of_unexpectedEnd h
    exact ⟨viable_iff_reads.mpr ⟨r, hreads⟩, by simp [h]⟩
  · rintro ⟨hviable, hquery⟩
    obtain ⟨r, hreads⟩ := viable_iff_reads.mp hviable
    cases hfinish : r.finish with
    | ok e => exact absurd (parse_eq_ok_iff_reads.mpr ⟨r, hreads, hfinish⟩) (hquery e)
    | error err =>
      refine ⟨r.focus.expected, ?_⟩
      rw [← Reading.finish_eq_error hfinish, ← hfinish, parse, hreads]
      rfl

/-- An error of reading points at the first impossible token and names a possible one, or it says
that the end came too soon, which is so exactly for viable tokens that are no query. -/
theorem parse_error_at_first_impossible_token (ts : List Token) :
    (∀ {expected found position},
        parse ts = .error (.unexpectedToken expected found position) →
          ∃ i t, FirstImpossible ts i t ∧ t.kind = found ∧ t.position = position ∧
            ∀ u : Token, u.kind = expected.kind → Viable (ts.take i ++ [u])) ∧
      (∀ {found position}, parse ts = .error (.trailingInput found position) →
          ∃ i t, FirstImpossible ts i t ∧ t.kind = found ∧ t.position = position ∧
            ∃ e, parse (ts.take i) = .ok e) ∧
      ((∃ expected, parse ts = .error (.unexpectedEnd expected)) ↔
        Viable ts ∧ ∀ e, parse ts ≠ .ok e) ∧
      ∀ {expected}, parse ts = .error (.unexpectedEnd expected) →
        ∀ u : Token, u.kind = expected.kind → Viable (ts ++ [u]) := by
  refine ⟨exists_firstImpossible_of_unexpectedToken, exists_firstImpossible_of_trailingInput,
    unexpectedEnd_iff, ?_⟩
  intro expected h u hu
  obtain ⟨r, hreads, hr, rfl⟩ := exists_reads_of_unexpectedEnd h
  exact viable_concat_of_expected hreads hr hu

theorem parse_error_at_first_impossible_token_bracket :
    (∃ i t, FirstImpossible (tokenize "π[a(R)") i t ∧ t.kind = .leftParen ∧ t.position = 3 ∧
        Viable ((tokenize "π[a(R)").take i ++ [⟨.rightBracket, "]", 3⟩])) ∧
      (∃ i t, FirstImpossible (tokenize "R ∪ (S))") i t ∧ t.kind = .rightParen ∧ t.position = 7 ∧
        ∃ e, parse ((tokenize "R ∪ (S))").take i) = .ok e) ∧
      Viable (tokenize "σ[a>1](R") ∧ (∀ e, parse (tokenize "σ[a>1](R") ≠ .ok e) ∧
      Viable (tokenize "σ[a>1](R" ++ [⟨.rightParen, ")", 8⟩]) := by
  have hbracket : parse (tokenize "π[a(R)") =
      .error (.unexpectedToken (.token .rightBracket) .leftParen 3) := rfl
  have htrailing : parse (tokenize "R ∪ (S))") = .error (.trailingInput .rightParen 7) := rfl
  have hend : parse (tokenize "σ[a>1](R") = .error (.unexpectedEnd (.token .rightParen)) := rfl
  obtain ⟨-, -, hiff, hexpected⟩ := parse_error_at_first_impossible_token (tokenize "σ[a>1](R")
  obtain ⟨hviable, hquery⟩ := hiff.mp ⟨_, hend⟩
  refine ⟨?_, ?_, hviable, hquery, hexpected hend _ rfl⟩
  · obtain ⟨i, t, ht, hkind, hposition, hnext⟩ :=
      (parse_error_at_first_impossible_token _).1 hbracket
    exact ⟨i, t, ht, hkind, hposition, hnext _ rfl⟩
  · exact (parse_error_at_first_impossible_token _).2.1 htrailing

end RelTrace
