import RelTrace.Json.Document
import RelTrace.Json.Token

/-!
# Pieces of written texts

Each piece of a written JSON text is one token, and the pieces after it are cut as if it were not
there. Only a number has to end before what follows: what follows must not go on with it.

## Main definitions

* `Json.EndsNumber`: what may follow a number.
-/

namespace RelTrace.Json

variable {c : Char} {cs ds rest : List Char}

theorem tokens_of_isSpace (h : isSpace c) : tokens (c :: cs) = tokens cs := by
  rw [tokens, if_pos h]

theorem tokens_of_not_isSpace (h : isSpace c = false) :
    tokens (c :: cs) = (tokenAt c cs).1 :: tokens (tokenAt c cs).2 := by
  rw [tokens, if_neg (by simp [h])]

theorem tokens_append_of_isSpace (h : ∀ c ∈ cs, isSpace c) : tokens (cs ++ rest) = tokens rest := by
  induction cs with
  | nil => rfl
  | cons c cs ih =>
    rw [List.cons_append, tokens_of_isSpace (h c (by simp)), ih fun d hd => h d (by simp [hd])]

theorem isSpace_of_tokens_eq_nil (h : tokens cs = []) : ∀ c ∈ cs, isSpace c := by
  induction cs with
  | nil => simp
  | cons c cs ih =>
    cases hc : isSpace c with
    | true =>
      rw [tokens_of_isSpace hc] at h
      simpa [hc] using ih h
    | false =>
      rw [tokens_of_not_isSpace hc] at h
      cases h

/-- A mark of one character is a token, whatever follows it. -/
theorem tokens_mark {t : Token} (hspace : isSpace c = false) (h : ∀ cs, tokenAt c cs = (t, cs)) :
    tokens (c :: cs) = t :: tokens cs := by
  rw [tokens_of_not_isSpace hspace, h]

theorem tokens_null (rest : List Char) : tokens ("null".toList ++ rest) = .null :: tokens rest := by
  have htext : "null".toList ++ rest = 'n' :: 'u' :: 'l' :: 'l' :: rest := rfl
  rw [htext, tokens_of_not_isSpace rfl]
  simp [tokenAt, scanWord, Scan.token]

theorem tokens_bool (b : Bool) (rest : List Char) :
    tokens ((if b then "true" else "false").toList ++ rest) = .bool b :: tokens rest := by
  cases b with
  | true =>
    have htext : "true".toList ++ rest = 't' :: 'r' :: 'u' :: 'e' :: rest := rfl
    rw [if_pos rfl, htext, tokens_of_not_isSpace rfl]
    simp [tokenAt, scanWord, Scan.token]
  | false =>
    have htext : "false".toList ++ rest = 'f' :: 'a' :: 'l' :: 's' :: 'e' :: rest := rfl
    rw [if_neg nofun, htext, tokens_of_not_isSpace rfl]
    simp [tokenAt, scanWord, Scan.token]

/-! ## Strings -/

theorem hexDigit?_digitChar {n : Nat} (h : n < 16) : hexDigit? (Nat.digitChar n) = some n := by
  revert n
  decide

theorem hexValue?_control (h : c.toNat < 0x20) :
    hexValue? '0' '0' (Nat.digitChar (c.toNat / 16)) (Nat.digitChar (c.toNat % 16)) =
      some c.toNat := by
  have hzero : hexDigit? '0' = some 0 := rfl
  simp only [hexValue?, hzero, hexDigit?_digitChar (show c.toNat / 16 < 16 by omega),
    hexDigit?_digitChar (show c.toNat % 16 < 16 by omega), Option.some.injEq]
  omega

/-- A character that needs no escape is scanned as it stands. -/
theorem scanString_cons (hquote : c ≠ '"') (hbackslash : c ≠ '\\') (hcontrol : ¬ c.toNat < 0x20)
    (rest : List Char) : scanString (c :: rest) = (scanString rest).push c := by
  rw [scanString, if_neg hcontrol]
  · exact hquote
  -- all other patterns of the scanner begin with a backslash
  all_goals
    intros
    contradiction

/-- An escaped character is scanned as the character. -/
theorem scanString_escape (c : Char) (rest : List Char) :
    scanString (escape c ++ rest) = (scanString rest).push c := by
  unfold escape
  split
  case h_8 hquote hbackslash _ _ _ _ _ =>
    split
    case isTrue hcontrol =>
      have hhigh : isHighSurrogate c.toNat = false := by simp [isHighSurrogate]; omega
      have hlow : isLowSurrogate c.toNat = false := by simp [isLowSurrogate]; omega
      simp [scanString, hexValue?_control hcontrol, hhigh, hlow, Char.ofNat_toNat]
    case isFalse hcontrol => exact scanString_cons hquote hbackslash hcontrol rest
  all_goals simp [scanString, unescape?]

theorem scanString_flatMap_escape (cs rest : List Char) :
    scanString (cs.flatMap escape ++ '"' :: rest) = .found (some cs) rest := by
  induction cs with
  | nil => simp [scanString]
  | cons c cs ih =>
    rw [List.flatMap_cons, List.append_assoc, scanString_escape, ih]
    rfl

theorem tokens_stringText (s : String) (rest : List Char) :
    tokens (stringText s ++ rest) = .string (some s) :: tokens rest := by
  have hscan : tokenAt '"' (s.toList.flatMap escape ++ '"' :: rest) = (.string (some s), rest) := by
    simp [tokenAt, scanString_flatMap_escape, Scan.token]
  have htext : stringText s ++ rest = '"' :: (s.toList.flatMap escape ++ '"' :: rest) := by
    simp [stringText]
  rw [htext, tokens_of_not_isSpace rfl, hscan]

/-! ## Numbers -/

/-- The text does not go on with a number. -/
def EndsNumber (rest : List Char) : Prop :=
  ∀ c ∈ rest.head?, c.isDigit = false ∧ c ≠ '.' ∧ c ≠ 'e' ∧ c ≠ 'E'

theorem EndsNumber.takeWhile_append (h : EndsNumber rest) (cs : List Char) :
    (cs ++ rest).takeWhile Char.isDigit = cs.takeWhile Char.isDigit := by
  induction cs with
  | nil =>
    cases rest with
    | nil => rfl
    | cons c rest => simp [(h c rfl).1]
  | cons c cs ih => simp [List.takeWhile_cons, ih]

theorem EndsNumber.dropWhile_append (h : EndsNumber rest) (cs : List Char) :
    (cs ++ rest).dropWhile Char.isDigit = cs.dropWhile Char.isDigit ++ rest := by
  induction cs with
  | nil =>
    cases rest with
    | nil => rfl
    | cons c rest => simp [(h c rfl).1]
  | cons c cs ih =>
    simp only [List.cons_append, List.dropWhile_cons, ih]
    split <;> rfl

theorem scanWhole_append (h : EndsNumber rest) {left : List Char}
    (hscan : scanWhole cs = .found ds left) :
    scanWhole (cs ++ rest) = .found ds (left ++ rest) := by
  unfold scanWhole at *
  rw [h.takeWhile_append, h.dropWhile_append]
  split at hscan
  · split at hscan <;> cases hscan
  · cases hscan
  · cases hscan
    simp_all

theorem scanFraction_append (h : EndsNumber rest) {left : List Char}
    (hscan : scanFraction cs = .found ds left) :
    scanFraction (cs ++ rest) = .found ds (left ++ rest) := by
  unfold scanFraction at hscan
  split at hscan
  · rw [List.cons_append, scanFraction, h.takeWhile_append, h.dropWhile_append]
    split at hscan
    · split at hscan <;> cases hscan
    · cases hscan
      simp_all
  · cases hscan
    unfold scanFraction
    split
    · cases cs with
      | nil =>
        rename_i hpoint
        rw [List.nil_append] at hpoint
        exact absurd rfl (h '.' (by rw [hpoint]; rfl)).2.1
      | cons => simp_all
    · rfl

theorem takeSign_append_of_ne_nil (h : cs ≠ []) (rest : List Char) :
    takeSign (cs ++ rest) = ((takeSign cs).1, (takeSign cs).2 ++ rest) := by
  unfold takeSign
  cases cs with
  | nil => contradiction
  | cons => split <;> simp_all

theorem scanExponent_append (h : EndsNumber rest) {e : Int} {left : List Char}
    (hscan : scanExponent cs = .found e left) :
    scanExponent (cs ++ rest) = .found e (left ++ rest) := by
  have hne : cs ≠ [] := by
    rintro rfl
    cases hscan
  simp only [scanExponent] at hscan ⊢
  rw [takeSign_append_of_ne_nil hne]
  simp only [h.takeWhile_append, h.dropWhile_append]
  split at hscan
  · split at hscan <;> cases hscan
  · cases hscan
    simp_all

/-- A number is scanned as it stands before whatever does not go on with it. -/
theorem scanNumber_append (h : EndsNumber rest) {negative : Bool} {n : Option Number}
    {left : List Char} (hscan : scanNumber negative cs = .found n left) :
    scanNumber negative (cs ++ rest) = .found n (left ++ rest) := by
  unfold scanNumber at *
  cases hwhole : scanWhole cs with
  | flawed => simp [hwhole] at hscan
  | found whole afterWhole =>
    rw [scanWhole_append h hwhole]
    simp only [hwhole] at hscan ⊢
    cases hfraction : scanFraction afterWhole with
    | flawed => simp [hfraction] at hscan
    | found fraction afterFraction =>
      rw [scanFraction_append h hfraction]
      simp only [hfraction] at hscan ⊢
      split at hscan
      · simp at hscan
      · rename_i hexponent
        simp only [Scan.found.injEq] at hscan
        obtain ⟨rfl, rfl⟩ := hscan
        split at hexponent
        · simp [scanExponent_append h hexponent]
        · simp [scanExponent_append h hexponent]
        · simp only [Scan.found.injEq] at hexponent
          obtain ⟨rfl, rfl⟩ := hexponent
          cases afterFraction with
          | nil =>
            cases rest with
            | nil => rfl
            | cons c rest =>
              obtain ⟨-, -, hlower, hupper⟩ := h c rfl
              simp [hlower, hupper]
          | cons => simp_all

theorem tokenAt_of_isDigit (h : c.isDigit) :
    tokenAt c cs = (scanNumber false (c :: cs)).token false .number := by
  unfold tokenAt
  split <;> first | cases h | simp [h]

theorem eq_minus_or_isDigit_of_tokenAt {n : Option Number} (h : (tokenAt c cs).1 = .number n) :
    c = '-' ∨ c.isDigit := by
  unfold tokenAt at h
  split at h
  case h_11 => exact .inl rfl
  case h_12 =>
    split at h
    · exact .inr ‹_›
    · cases h
  all_goals
    simp only [Scan.token] at h
    try split at h
    all_goals cases h

theorem Scan.token_number_append (h : EndsNumber rest) {negative : Bool} {n : Option Number}
    (htoken : ((scanNumber negative cs).token false .number).1 = .number n) :
    (scanNumber negative (cs ++ rest)).token false .number =
      (.number n, ((scanNumber negative cs).token false .number).2 ++ rest) := by
  cases hscan : scanNumber negative cs with
  | flawed f =>
    rw [hscan] at htoken
    cases htoken
  | found m left =>
    rw [hscan] at htoken
    obtain rfl := Token.number.inj htoken
    rw [scanNumber_append h hscan]
    rfl

/-- A number ends where it ends before whatever does not go on with it. -/
theorem tokenAt_append (h : EndsNumber rest) {n : Option Number}
    (htoken : (tokenAt c cs).1 = .number n) :
    tokenAt c (cs ++ rest) = (.number n, (tokenAt c cs).2 ++ rest) := by
  rcases eq_minus_or_isDigit_of_tokenAt htoken with rfl | hdigit
  · exact Scan.token_number_append h htoken
  · rw [tokenAt_of_isDigit hdigit] at htoken ⊢
    rw [tokenAt_of_isDigit hdigit, ← List.cons_append]
    exact Scan.token_number_append h htoken

/-- A text that is one number is one number before whatever does not go on with it. -/
theorem tokens_append_of_number (h : EndsNumber rest) {n : Option Number}
    (htokens : tokens cs = [.number n]) : tokens (cs ++ rest) = .number n :: tokens rest := by
  induction cs with
  | nil => simp [tokens] at htokens
  | cons c cs ih =>
    cases hc : isSpace c with
    | true =>
      rw [tokens_of_isSpace hc] at htokens
      rw [List.cons_append, tokens_of_isSpace hc, ih htokens]
    | false =>
      rw [tokens_of_not_isSpace hc] at htokens
      obtain ⟨htoken, hleft⟩ := List.cons.inj htokens
      rw [List.cons_append, tokens_of_not_isSpace hc, tokenAt_append h htoken,
        tokens_append_of_isSpace (isSpace_of_tokens_eq_nil hleft)]

end RelTrace.Json
