import RelTrace.Proofs.Query.Bytes
import RelTrace.Proofs.Query.Seams

/-!
# Tokens in two passes

The tokens of a query, read by alternatives. Each time the first reader that can takes something
from the front of what is left: white space, a symbol, an identifier or any character. This pass
counts bytes, and a second one counts the characters between the beginnings of tokens. The result
is the same as with one pass that counts characters and keeps the run that may go on.

## Main definitions

* `Unread`: what is left of an encoded text.
* `Unread.item?`: the alternatives; `Unread.tokens`: the first pass.
* `Token.countChars`: the second pass.
-/

namespace RelTrace

/-- What is left of a text, and the byte that it begins at. -/
structure Unread where
  place : Nat
  chars : List Char

namespace Unread

/-- The characters at the front that lie in a class, unless there are none. -/
def takeRun? (p : Char → Bool) (input : Unread) : Option (List Char × Unread) :=
  let run := input.chars.takeWhile p
  if run.isEmpty then none
  else some (run, ⟨input.place + byteLength run, input.chars.dropWhile p⟩)

/-- The character at the front. -/
def takeChar? (input : Unread) : Option (Char × Unread) :=
  match input.chars with
  | [] => none
  | c :: later => some (c, ⟨input.place + c.utf8Size, later⟩)

/-- A symbol, whose position is a byte. -/
def symbol? (input : Unread) : Option (Token × Unread) := do
  let (c, later) ← input.takeChar?
  let kind ← Token.Kind.ofSymbol? c
  return (⟨kind, String.ofList [c], input.place⟩, later)

/-- An identifier, whose position is a byte. -/
def identifier? (input : Unread) : Option (Token × Unread) := do
  let (run, later) ← input.takeRun? Token.isIdentifierChar
  return (⟨.identifier, String.ofList run, input.place⟩, later)

/-- White space, a symbol, an identifier or any other character, whichever comes first here, with
the token that it makes. -/
def item? (input : Unread) : Option (Option Token × Unread) :=
  ((input.takeRun? Text.isBlank).map fun (_, later) => (none, later)).or <|
    (input.symbol?.map fun (t, later) => (some t, later)).or <|
    (input.identifier?.map fun (t, later) => (some t, later)).or <|
    input.takeChar?.map fun (_, later) => (none, later)

/-- Some characters stand at the front, and the rest begins behind their bytes. -/
structure Takes (input : Unread) (taken : List Char) (later : Unread) : Prop where
  chars_eq : input.chars = taken ++ later.chars
  place_eq : later.place = input.place + byteLength taken

variable {input later : Unread} {p : Char → Bool} {run taken : List Char} {c : Char}
  {kept : Option Token}

theorem takeRun?_spec (h : input.takeRun? p = some (run, later)) :
    input.Takes run later ∧ run ≠ [] ∧ (∀ c ∈ run, p c) ∧
      ∀ c ∈ later.chars.head?, p c = false := by
  rw [takeRun?] at h
  split at h
  · cases h
  · next hne =>
    cases h
    refine ⟨⟨List.takeWhile_append_dropWhile.symm, rfl⟩, by simpa using hne,
      fun c => List.mem_takeWhile_imp, fun c hc => ?_⟩
    have hstops := List.head?_dropWhile_not p input.chars
    rwa [Option.mem_def.mp hc] at hstops

theorem takeRun?_eq_none (h : input.takeRun? p = none) : ∀ c ∈ input.chars.head?, p c = false := by
  intro c hc
  obtain ⟨cs, hchars⟩ := List.head?_eq_some_iff.mp (Option.mem_def.mp hc)
  by_contra hp
  simp [takeRun?, hchars, List.takeWhile_cons, hp] at h

theorem takeChar?_spec (h : input.takeChar? = some (c, later)) : input.Takes [c] later := by
  rw [takeChar?] at h
  split at h
  · cases h
  · next hchars =>
    cases h
    exact ⟨hchars, rfl⟩

theorem takeChar?_eq_none : input.takeChar? = none ↔ input.chars = [] := by
  rw [takeChar?]
  split <;> simp_all

/-- A symbol is scanned as such. -/
theorem symbol?_spec {t : Token} (h : input.symbol? = some (t, later)) (position : Nat) :
    ∃ c, input.Takes [c] later ∧ t.position = input.place ∧
      Token.scan position [] input.chars =
        { t with position := position } :: Token.scan (position + 1) [] later.chars := by
  rw [symbol?, Option.bind_eq_bind, Option.bind_eq_some_iff] at h
  obtain ⟨⟨c, rest⟩, hc, h⟩ := h
  obtain ⟨kind, hkind, h⟩ := Option.bind_eq_some_iff.mp h
  obtain ⟨rfl, rfl⟩ := Prod.mk.inj (Option.some.inj h)
  have htakes := takeChar?_spec hc
  refine ⟨c, htakes, rfl, ?_⟩
  rw [htakes.chars_eq, List.singleton_append, Token.scan_symbol hkind]

theorem symbol?_eq_none (h : input.symbol? = none) :
    ∀ c ∈ input.chars.head?, Token.Kind.ofSymbol? c = none := by
  intro c hc
  obtain ⟨cs, hchars⟩ := List.head?_eq_some_iff.mp (Option.mem_def.mp hc)
  cases hkind : Token.Kind.ofSymbol? c with
  | none => rfl
  | some kind => simp [symbol?, takeChar?, hchars, hkind] at h

/-- An identifier is scanned as such if it does not begin with a symbol. -/
theorem identifier?_spec {t : Token} (h : input.identifier? = some (t, later))
    (hsymbol : ∀ c ∈ input.chars.head?, Token.Kind.ofSymbol? c = none) (position : Nat) :
    ∃ run, run ≠ [] ∧ input.Takes run later ∧ t.position = input.place ∧
      Token.scan position [] input.chars =
        { t with position := position } :: Token.scan (position + run.length) [] later.chars := by
  rw [identifier?, Option.bind_eq_bind, Option.bind_eq_some_iff] at h
  obtain ⟨⟨run, rest⟩, hrun, h⟩ := h
  obtain ⟨rfl, rfl⟩ := Prod.mk.inj (Option.some.inj h)
  obtain ⟨htakes, hne, hinside, hbehind⟩ := takeRun?_spec hrun
  refine ⟨run, hne, htakes, rfl, ?_⟩
  have hname : Token.IsName (String.ofList run) := by
    rw [Token.IsName, String.toList_ofList]
    refine ⟨hne, fun hhead => ?_, hinside⟩
    have hunderscore := hsymbol '_' (by rw [htakes.chars_eq, List.head?_append, hhead]; rfl)
    cases hunderscore
  have hscan : Token.scan position [] _ = _ := hname.scan
  rw [String.toList_ofList] at hscan
  rw [htakes.chars_eq, Token.scan_append hbehind, hscan]
  rfl

theorem identifier?_eq_none (h : input.identifier? = none) :
    ∀ c ∈ input.chars.head?, Token.isIdentifierChar c = false := by
  cases hrun : input.takeRun? Token.isIdentifierChar with
  | none => exact takeRun?_eq_none hrun
  | some result => simp [identifier?, hrun] at h

/-- What is taken is scanned to the token that it makes. -/
theorem item?_spec (h : input.item? = some (kept, later)) (position : Nat) :
    ∃ taken, taken ≠ [] ∧ input.Takes taken later ∧ (∀ t ∈ kept, t.position = input.place) ∧
      Token.scan position [] input.chars =
        (kept.map fun t => { t with position := position }).toList ++
          Token.scan (position + taken.length) [] later.chars := by
  simp only [item?, Option.or_eq_some_iff, Option.map_eq_some_iff,
    Option.map_eq_none_iff, Prod.exists, Prod.mk.injEq] at h
  rcases h with ⟨run, later, hrun, rfl, rfl⟩ | ⟨hblank, ⟨t, later, hsymbol, rfl, rfl⟩ |
    ⟨hsymbol, ⟨t, later, hidentifier, rfl, rfl⟩ | ⟨hidentifier, c, later, hc, rfl, rfl⟩⟩⟩
  · obtain ⟨htakes, hne, hinside, -⟩ := takeRun?_spec hrun
    have hdropped : ∀ c ∈ run, Token.isKept c = false := fun c hc =>
      Token.isKept_eq_false_of_isBlank (hinside c hc)
    refine ⟨run, hne, htakes, by simp, ?_⟩
    rw [htakes.chars_eq, Token.scan_of_dropped hdropped (.inl rfl)]
    rfl
  · obtain ⟨c, htakes, hposition, hscan⟩ := symbol?_spec hsymbol position
    exact ⟨[c], List.cons_ne_nil _ _, htakes, by simpa using hposition, hscan⟩
  · obtain ⟨run, hne, htakes, hposition, hscan⟩ :=
      identifier?_spec hidentifier (symbol?_eq_none hsymbol) position
    exact ⟨run, hne, htakes, by simpa using hposition, hscan⟩
  · have htakes := takeChar?_spec hc
    have hhead : c ∈ input.chars.head? := by rw [htakes.chars_eq]; rfl
    have hdropped : Token.isKept c = false := Token.isKept_eq_false_iff.mpr
      ⟨identifier?_eq_none hidentifier c hhead, symbol?_eq_none hsymbol c hhead⟩
    refine ⟨[c], List.cons_ne_nil _ _, htakes, by simp, ?_⟩
    rw [htakes.chars_eq, Token.scan_of_dropped (by simpa using hdropped) (.inl rfl)]
    rfl

/-- Something is taken as long as anything is left. -/
theorem item?_eq_none : input.item? = none ↔ input.chars = [] := by
  constructor
  · intro h
    simp only [item?, Option.or_eq_none_iff, Option.map_eq_none_iff] at h
    exact takeChar?_eq_none.mp h.2.2.2
  · intro h
    simp [item?, takeRun?, symbol?, identifier?, takeChar?, h]

theorem length_chars_lt (h : input.item? = some (kept, later)) :
    later.chars.length < input.chars.length := by
  obtain ⟨taken, hne, htakes, -⟩ := item?_spec h 0
  have hpos := List.length_pos_iff.mpr hne
  rw [htakes.chars_eq, List.length_append]
  omega

/-- The first pass: the tokens of what is left, whose positions are bytes. -/
def tokens (input : Unread) : List Token :=
  match h : input.item? with
  | none => []
  | some (kept, later) =>
    have := length_chars_lt h
    kept.toList ++ later.tokens
termination_by input.chars.length

theorem tokens_of_none (h : input.item? = none) : input.tokens = [] := by
  rw [tokens]
  split
  · rfl
  · simp_all

theorem tokens_of_some (h : input.item? = some (kept, later)) :
    input.tokens = kept.toList ++ later.tokens := by
  rw [tokens]
  split <;> simp_all

end Unread

namespace Token

/-- The second pass: the positions become numbers of characters. The bytes from the beginning of
one token to that of the next are cut out of the query and counted in characters. -/
def countChars (query : String) (byte chars : Nat) : List Token → List Token
  | [] => []
  | t :: ts =>
    let chars := chars + ((Text.bytes? query byte t.position).map String.length).getD 0
    { t with position := chars } :: countChars query t.position chars ts

end Token

/-- The tokens of a query, in two passes. -/
def tokenizeInPasses (query : String) : List Token :=
  Token.countChars query 0 0 (Unread.tokens ⟨0, query.toList⟩)

/-- Where the characters up to a token are counted, its position is right, and the others are
counted from there. -/
theorem countChars_tokens (counted gap : List Char) (input : Unread)
    (hplace : input.place = byteLength (counted ++ gap)) :
    Token.countChars (String.ofList (counted ++ gap ++ input.chars)) (byteLength counted)
        counted.length input.tokens =
      Token.scan (counted ++ gap).length [] input.chars := by
  induction input using Unread.tokens.induct generalizing counted gap with
  | case1 input hnone =>
    rw [Unread.tokens_of_none hnone, Unread.item?_eq_none.mp hnone]
    rfl
  | case2 input kept later hsome _ ih =>
    obtain ⟨taken, -, htakes, hposition, hscan⟩ :=
      Unread.item?_spec hsome (counted ++ gap).length
    rw [Unread.tokens_of_some hsome, hscan, htakes.chars_eq]
    cases kept with
    | none =>
      have hlater := ih counted (gap ++ taken)
        (by rw [← List.append_assoc, htakes.place_eq, hplace, ← byteLength_append])
      simpa [List.append_assoc, Nat.add_assoc] using hlater
    | some t =>
      have hlater := ih (counted ++ gap) taken
        (by rw [htakes.place_eq, hplace, ← byteLength_append])
      have hbyte : t.position = byteLength (counted ++ gap) := (hposition t rfl).trans hplace
      have hcut := Text.bytes?_append (String.ofList counted) (String.ofList gap)
        (String.ofList (taken ++ later.chars))
      simp only [← String.ofList_append, ← byteLength_eq] at hcut
      simp only [Option.toList_some, List.singleton_append, Option.map_some, Token.countChars,
        hbyte, hcut, Option.getD_some, String.length_ofList, ← List.length_append]
      rw [← List.append_assoc, hlater]

/-- Two passes make the same tokens as one. -/
theorem tokenizeInPasses_eq (query : String) : tokenizeInPasses query = tokenize query := by
  have hpasses := countChars_tokens [] [] ⟨0, query.toList⟩ rfl
  simpa [tokenizeInPasses, tokenize, byteLength] using hpasses

end RelTrace
