import RelTrace.Proofs.Query.Lexical
import RelTrace.Proofs.Query.Moving

/-!
# Where a text may be cut

Scanning carries nothing across a place but the identifier that is still open there. So the tokens
of a text are those of its two parts wherever no identifier goes on from one part to the other.
Elsewhere the parts have the same tokens but for that identifier, which falls apart into pieces.

## Main definitions

* `Token.pending`: the identifier that is open after some characters.
* `Token.completed`: the tokens that have ended by then.
* `Token.Straddles`: a place lies inside a token.
* `Token.FallsInto`: the pieces of an identifier that is cut.
-/

namespace RelTrace.Token

/-- The run that is open after the characters, in reverse, if one is open before them. -/
def pending (run : List Char) : List Char → List Char
  | [] => run
  | c :: cs => if extendsRun run c then pending (c :: run) cs else pending [] cs

/-- The tokens that end before the characters do, if a run is open before them. -/
def completed (position : Nat) (run : List Char) : List Char → List Token
  | [] => []
  | c :: cs =>
    if extendsRun run c then completed (position + 1) (c :: run) cs
    else ofRun position run ++ (ofChar position c ++ completed (position + 1) [] cs)

/-- The place lies inside the token. -/
def Straddles (place : Nat) (t : Token) : Prop := t.position < place ∧ place < t.stop

instance (place : Nat) (t : Token) : Decidable (t.Straddles place) :=
  inferInstanceAs (Decidable (_ ∧ _))

/-- The pieces have the characters of the token, and none of them ends a condition. -/
structure FallsInto (t : Token) (pieces : List Token) : Prop where
  joinTexts : joinTexts pieces = t.text
  kind_ne : ∀ p ∈ pieces, p.kind ≠ .rightBracket ∧ p.kind ≠ .rightBrace

variable {position distance : Nat} {run cs ds us vs ws : List Char} {c : Char} {t : Token}

theorem scan_append_eq_completed (position : Nat) (run cs ds : List Char) :
    scan position run (cs ++ ds) =
      completed position run cs ++ scan (position + cs.length) (pending run cs) ds := by
  induction cs generalizing position run with
  | nil => rfl
  | cons c cs ih =>
    have hlen : position + (c :: cs).length = position + 1 + cs.length := by simp; omega
    rw [List.cons_append, hlen, completed, pending]
    cases hc : extendsRun run c with
    | true => simp only [scan_cons_of_extendsRun hc, ih, if_true]
    | false =>
      simp only [scan_cons_of_not_extendsRun hc, ih, Bool.false_eq_true, if_false,
        List.append_assoc]

theorem scan_eq_completed (position : Nat) (run cs : List Char) :
    scan position run cs =
      completed position run cs ++ ofRun (position + cs.length) (pending run cs) := by
  simpa using scan_append_eq_completed position run cs []

theorem length_pending_le (run cs : List Char) :
    (pending run cs).length ≤ run.length + cs.length := by
  induction cs generalizing run with
  | nil => simp [pending]
  | cons c cs ih =>
    rw [pending]
    split
    · have := ih (c :: run)
      simp only [List.length_cons] at this ⊢
      omega
    · have := ih []
      simp only [List.length_cons, List.length_nil] at this ⊢
      omega

/-- A token that moves to the right as a whole. -/
theorem movesWhole_shift (distance : Nat) (t : Token) : t.MovesWhole (.shift distance) := by
  simp only [MovesWhole, move, stop, Move.shift]
  omega

theorem ofRun_shift (h : run.length ≤ position) :
    ofRun (position + distance) run = (ofRun position run).map (move (.shift distance)) := by
  cases run with
  | nil => rfl
  | cons c run =>
    have hplace : position + distance - (c :: run).length =
        position - (c :: run).length + distance := by omega
    rw [ofRun, ofRun, hplace]
    rfl

theorem ofChar_shift :
    ofChar (position + distance) c = (ofChar position c).map (move (.shift distance)) := by
  unfold ofChar
  cases Kind.ofSymbol? c <;> rfl

/-- Tokens further to the right are the same tokens, moved. -/
theorem scan_shift (h : run.length ≤ position) :
    scan (position + distance) run cs = (scan position run cs).map (move (.shift distance)) := by
  induction cs generalizing position run with
  | nil => exact ofRun_shift h
  | cons c cs ih =>
    cases hc : extendsRun run c with
    | true =>
      have hrest : scan (position + 1 + distance) (c :: run) cs = _ := ih (by simpa using h)
      rw [scan_cons_of_extendsRun hc, scan_cons_of_extendsRun hc, ← hrest, Nat.add_right_comm]
    | false =>
      have hrest : scan (position + 1 + distance) [] cs = _ := ih (Nat.zero_le _)
      rw [scan_cons_of_not_extendsRun hc, scan_cons_of_not_extendsRun hc, List.map_append,
        List.map_append, ← ofRun_shift h, ← ofChar_shift, ← hrest, Nat.add_right_comm]

/-- Characters that no token keeps end a run. -/
theorem scan_of_dropped (hws : ∀ c ∈ ws, isKept c = false) (hrun : run = [] ∨ ws ≠ []) :
    scan position run (ws ++ cs) = ofRun position run ++ scan (position + ws.length) [] cs := by
  induction ws generalizing position run with
  | nil =>
    obtain rfl : run = [] := hrun.resolve_right (by simp)
    rfl
  | cons c ws ih =>
    have hkept : isKept c = false := hws c List.mem_cons_self
    have hc : extendsRun run c = false :=
      Bool.eq_false_iff.mpr fun h => by simp [isKept_of_extendsRun h] at hkept
    have hsymbol : ofChar position c = [] := by
      rw [isKept_of_not_extendsRun hc, Option.isSome_eq_false_iff, Option.isNone_iff_eq_none]
        at hkept
      rw [ofChar, hkept]
      rfl
    have hlen : position + (c :: ws).length = position + 1 + ws.length := by simp; omega
    rw [List.cons_append, scan_cons_of_not_extendsRun hc, hsymbol, hlen,
      ih (fun d hd => hws d (List.mem_cons_of_mem c hd)) (.inl rfl)]
    rfl

/-- Dropped characters between two texts only move the tokens of the second one. -/
theorem scan_insert (hws : ∀ c ∈ ws, isKept c = false) (hne : ws ≠ []) :
    scan position run (us ++ (ws ++ vs)) =
      scan position run us ++ scan (position + us.length + ws.length) [] vs := by
  rw [scan_append_eq_completed, scan_of_dropped hws (.inr hne), scan_eq_completed position run us,
    List.append_assoc]

/-- A text begins with a run of identifier characters, which may be empty. -/
theorem exists_identifier_append (cs : List Char) :
    ∃ name rest, cs = name ++ rest ∧ (∀ c ∈ name, isIdentifierChar c) ∧
      ∀ d ∈ rest.head?, isIdentifierChar d = false := by
  induction cs with
  | nil => exact ⟨[], [], rfl, by simp, by simp⟩
  | cons c cs ih =>
    cases hc : isIdentifierChar c with
    | false => exact ⟨[], c :: cs, rfl, by simp, by simpa using hc⟩
    | true =>
      obtain ⟨name, rest, rfl, hname, hrest⟩ := ih
      exact ⟨c :: name, rest, rfl, by simpa using ⟨hc, hname⟩, hrest⟩

/-- The pieces of an open identifier and of the characters that go on with it. -/
theorem fallsInto_ofRun (hrun : run ≠ []) (hcs : ∀ c ∈ cs, isIdentifierChar c) (start : Nat) :
    FallsInto ⟨.identifier, String.ofList (run.reverse ++ cs), start⟩
      (ofRun position run ++ scan position [] cs) where
  joinTexts := by
    have hkept : cs.filter isKept = cs :=
      List.filter_eq_self.mpr fun c hc => by simp [isKept, hcs c hc]
    simp [joinTexts_ofRun, joinTexts_scan, hkept, String.ofList_append]
  kind_ne := by
    have hnot (symbol : Char) (h : isIdentifierChar symbol = false) : symbol ∉ cs :=
      fun hmem => by simp [hcs symbol hmem] at h
    intro p hp
    rcases List.mem_append.mp hp with hp | hp
    · cases run with
      | nil => contradiction
      | cons =>
        obtain rfl := List.mem_singleton.mp hp
        simp
    · exact ⟨kind_ne_of_not_mem (hnot ']' rfl) rfl p hp,
        kind_ne_of_not_mem (hnot '}' rfl) rfl p hp⟩

/-- An open identifier that goes on is one token with what follows. -/
theorem scan_identifier_append (hrun : run ≠ []) (hcs : ∀ c ∈ cs, isIdentifierChar c)
    (hds : ∀ d ∈ ds.head?, isIdentifierChar d = false) :
    scan position run (cs ++ ds) =
      ⟨.identifier, String.ofList (run.reverse ++ cs), position - run.length⟩ ::
        scan (position + cs.length) [] ds := by
  have hne : (cs.reverse ++ run).isEmpty = false := by simp [hrun]
  have hplace : position + cs.length - (cs.reverse ++ run).length = position - run.length := by
    simp only [List.length_append, List.length_reverse]
    omega
  rw [scan_append hds, scan_of_isIdentifierChar hrun hcs, ofRun, hplace, hne]
  simp

/-- A text is cut between tokens, or inside an identifier that falls apart. -/
theorem scan_cut_cases (hrun : run.length ≤ position) (us vs : List Char) :
    scan position run (us ++ vs) =
        scan position run us ++ scan (position + us.length) [] vs ∨
      ∃ before t pieces after, scan position run (us ++ vs) = before ++ t :: after ∧
        scan position run us ++ scan (position + us.length) [] vs = before ++ pieces ++ after ∧
        t.kind = .identifier ∧ t.Straddles (position + us.length) ∧ t.FallsInto pieces := by
  obtain ⟨name, rest, rfl, hname, hrest⟩ := exists_identifier_append vs
  have hopen : (pending run us).length ≤ position + us.length :=
    Nat.le_trans (length_pending_le run us) (Nat.add_le_add_right hrun _)
  rw [scan_append_eq_completed, scan_eq_completed position run us, List.append_assoc]
  generalize pending run us = opened at hopen
  generalize position + us.length = place at hopen
  by_cases hseam : opened = [] ∨ name = []
  · left
    rcases hseam with rfl | rfl
    · rfl
    · have hsplit : scan place opened ([] ++ rest) = _ := scan_append hrest
      simpa using hsplit
  · right
    obtain ⟨hopened, hne⟩ := not_or.mp hseam
    have hpos := List.length_pos_iff.mpr hopened
    have hpos' := List.length_pos_iff.mpr hne
    refine ⟨_, _, ofRun place opened ++ scan place [] name, _,
      congrArg _ (scan_identifier_append hopened hname hrest), ?_, rfl, ?_,
      fallsInto_ofRun hopened hname _⟩
    · rw [scan_append hrest]
      simp only [List.append_assoc]
    · simp only [Straddles, stop, String.length_ofList, List.length_append, List.length_reverse]
      omega

/-- Between tokens a text falls apart into the tokens of its parts. -/
theorem scan_append_of_not_straddles (hrun : run.length ≤ position)
    (h : ∀ t ∈ scan position run (us ++ vs), t.kind = .identifier →
      ¬ t.Straddles (position + us.length)) :
    scan position run (us ++ vs) =
      scan position run us ++ scan (position + us.length) [] vs := by
  rcases scan_cut_cases hrun us vs with heq | ⟨before, t, _, after, heq, -, hkind, hstraddles, -⟩
  · exact heq
  · exact absurd hstraddles (h t (by simp [heq]) hkind)

end RelTrace.Token
