import RelTrace.Number.Decimal
import RelTrace.Proofs.Text.Cut

/-!
# The grammar of decimal spellings

A decimal spelling is an optional sign, digits with an optional point of which at least one digit is
given, and an optional exponent. Exactly these texts are read as numbers. Without its signs such a
text is still one, and if no sign is a minus it spells the same number.

## Main definitions

* `IsDecimal`: the grammar, made of `IsSign`, `IsMantissa` and `IsExponent`.
* `dropSigns`: the text without its signs.
* `isDecimalChar`: the characters that are left.
-/

namespace RelTrace

def IsDigits (ds : List Char) : Prop := ∀ d ∈ ds, d.isDigit

def IsSign (sign : List Char) : Prop := sign = [] ∨ sign = ['+'] ∨ sign = ['-']

inductive IsMantissa : List Char → Prop
  | whole {ds : List Char} (hds : IsDigits ds) (hne : ds ≠ []) : IsMantissa ds
  | point {ds fs : List Char} (hds : IsDigits ds) (hfs : IsDigits fs) (hne : ds ≠ [] ∨ fs ≠ []) :
      IsMantissa (ds ++ '.' :: fs)

inductive IsExponent : List Char → Prop
  | none : IsExponent []
  | some {mark : Char} {sign ds : List Char} (hmark : mark = 'e' ∨ mark = 'E') (hsign : IsSign sign)
      (hds : IsDigits ds) (hne : ds ≠ []) : IsExponent (mark :: (sign ++ ds))

/-- A decimal spelling. -/
inductive IsDecimal : List Char → Prop
  | intro {sign mantissa exponent : List Char} (hsign : IsSign sign)
      (hmantissa : IsMantissa mantissa) (hexponent : IsExponent exponent) :
      IsDecimal (sign ++ mantissa ++ exponent)

variable {cs sign ds : List Char}

theorem exists_isSign_takeSign (cs : List Char) :
    ∃ sign, IsSign sign ∧ cs = sign ++ (takeSign cs).2 := by
  unfold takeSign
  split
  · exact ⟨['+'], .inr (.inl rfl), rfl⟩
  · exact ⟨['-'], .inr (.inr rfl), rfl⟩
  · exact ⟨[], .inl rfl, rfl⟩

/-- The sign is taken off alone if the text goes on with something else. -/
theorem takeSign_append (h : IsSign sign) (hcs : ∀ c ∈ cs.head?, c ≠ '+' ∧ c ≠ '-') :
    takeSign (sign ++ cs) = ((takeSign sign).1, cs) := by
  rcases h with rfl | rfl | rfl
  · cases cs with
    | nil => rfl
    | cons c cs =>
      obtain ⟨hplus, hminus⟩ := hcs c rfl
      simp [takeSign, hplus, hminus]
  · rfl
  · rfl

theorem ne_sign_of_isDigit {c : Char} (hc : c.isDigit) : c ≠ '+' ∧ c ≠ '-' := by
  refine ⟨?_, ?_⟩ <;> rintro rfl <;> cases hc

theorem Decimal.readExponent?_eq {mark : Char} (hmark : mark = 'e' ∨ mark = 'E')
    (hsign : IsSign sign) (hds : IsDigits ds) (hne : ds ≠ []) :
    readExponent? (mark :: (sign ++ ds)) =
      some (signed (takeSign sign).1 (digitsValue ds)) := by
  have hhead : ∀ c ∈ ds.head?, c ≠ '+' ∧ c ≠ '-' := fun c hc =>
    ne_sign_of_isDigit (hds c (List.mem_of_mem_head? hc))
  simp only [readExponent?, takeSign_append hsign hhead]
  exact if_pos ⟨hmark, hne, List.all_eq_true.mpr hds⟩

theorem Decimal.isSome_readExponent?_iff : (readExponent? cs).isSome ↔ IsExponent cs := by
  constructor
  · intro h
    cases cs with
    | nil => exact .none
    | cons c cs =>
      obtain ⟨sign, hsign, hcs⟩ := exists_isSign_takeSign cs
      simp only [readExponent?] at h
      split at h
      · next hread =>
        obtain ⟨hmark, hne, hds⟩ := hread
        rw [hcs]
        exact .some hmark hsign (List.all_eq_true.mp hds) hne
      · cases h
  · intro h
    cases h with
    | none => rfl
    | some hmark hsign hds hne =>
      rw [readExponent?_eq hmark hsign hds hne]
      rfl

theorem isDigits_takeWhile (cs : List Char) : IsDigits (cs.takeWhile Char.isDigit) :=
  List.all_eq_true.mp List.all_takeWhile

theorem IsExponent.head?_eq (h : IsExponent cs) : ∀ c ∈ cs.head?, c = 'e' ∨ c = 'E' := by
  cases h with
  | none => simp
  | some hmark => simpa using hmark

theorem IsMantissa.head?_eq (h : IsMantissa cs) (ds : List Char) :
    ∀ c ∈ (cs ++ ds).head?, c ≠ '+' ∧ c ≠ '-' := by
  intro c hc
  cases h with
  | whole hcs hne =>
    cases cs with
    | nil => exact absurd rfl hne
    | cons d _ =>
      obtain rfl := Option.some.inj hc
      exact ne_sign_of_isDigit (hcs d List.mem_cons_self)
  | @point whole _ hcs _ _ =>
    cases whole with
    | nil => obtain rfl := Option.some.inj hc; decide
    | cons d _ =>
      obtain rfl := Option.some.inj hc
      exact ne_sign_of_isDigit (hcs d List.mem_cons_self)

theorem Decimal.isDecimal_of_isSome_read? (h : (read? cs).isSome) : IsDecimal cs := by
  obtain ⟨sign, hsign, hcs⟩ := exists_isSign_takeSign cs
  simp only [read?] at h
  generalize (takeSign cs).2 = body at hcs h
  have hbody : body.takeWhile Char.isDigit ++ body.dropWhile Char.isDigit = body :=
    List.takeWhile_append_dropWhile
  split at h
  · next rest hrest =>
    split at h
    · cases h
    · next hne =>
      rw [Option.isSome_map, isSome_readExponent?_iff] at h
      have hparts : cs = sign ++ (body.takeWhile Char.isDigit ++ '.' :: rest.takeWhile Char.isDigit)
          ++ rest.dropWhile Char.isDigit := by
        calc
          cs = sign ++ (body.takeWhile Char.isDigit ++ '.' :: rest) := by rw [← hrest, hbody, hcs]
          _ = _ := by simp
      rw [hparts]
      exact .intro hsign (.point (isDigits_takeWhile _) (isDigits_takeWhile _)
        (Classical.not_and_iff_not_or_not.mp hne)) h
  · split at h
    · cases h
    · next hne =>
      rw [Option.isSome_map, isSome_readExponent?_iff] at h
      rw [hcs, ← hbody, ← List.append_assoc]
      exact .intro hsign (.whole (isDigits_takeWhile _) fun hwhole => hne ⟨hwhole, rfl⟩) h

theorem IsExponent.not_isDigit_head (h : IsExponent cs) : ∀ c ∈ cs.head?, c.isDigit = false := by
  intro c hc
  rcases h.head?_eq c hc with rfl | rfl <;> rfl

namespace Decimal

variable {exponent : List Char}

theorem read?_whole (hsign : IsSign sign) (hds : IsDigits ds) (hne : ds ≠ [])
    (hexponent : IsExponent exponent) :
    read? (sign ++ ds ++ exponent) =
      (readExponent? exponent).map fun e => ((takeSign sign).1, ⟨digitsValue ds, e⟩) := by
  have hhead := (IsMantissa.whole hds hne).head?_eq exponent
  have hend := hexponent.not_isDigit_head
  simp only [read?, List.append_assoc, takeSign_append hsign hhead,
    Text.takeWhile_append_of_head? hds hend, Text.dropWhile_append_of_head? hds hend]
  split
  · rcases hexponent.head?_eq '.' rfl with h | h <;> cases h
  · simp [hne]

theorem read?_point {fs : List Char} (hsign : IsSign sign) (hds : IsDigits ds) (hfs : IsDigits fs)
    (hne : ds ≠ [] ∨ fs ≠ []) (hexponent : IsExponent exponent) :
    read? (sign ++ (ds ++ '.' :: fs) ++ exponent) =
      (readExponent? exponent).map fun e =>
        ((takeSign sign).1, ⟨digitsValue (ds ++ fs), e - fs.length⟩) := by
  have hhead := (IsMantissa.point hds hfs hne).head?_eq exponent
  have hend := hexponent.not_isDigit_head
  have hpoint : ∀ c ∈ ('.' :: (fs ++ exponent)).head?, c.isDigit = false := by simp
  rw [List.append_assoc, List.cons_append] at hhead
  simp only [read?, List.append_assoc, List.cons_append, takeSign_append hsign hhead,
    Text.takeWhile_append_of_head? hds hpoint, Text.dropWhile_append_of_head? hds hpoint,
    Text.takeWhile_append_of_head? hfs hend, Text.dropWhile_append_of_head? hfs hend]
  exact if_neg (Classical.not_and_iff_not_or_not.mpr hne)

/-- Exactly the decimal spellings are read. -/
theorem isSome_read?_iff : (read? cs).isSome ↔ IsDecimal cs := by
  refine ⟨isDecimal_of_isSome_read?, ?_⟩
  rintro ⟨hsign, ⟨hds, hne⟩ | ⟨hds, hfs, hne⟩, hexponent⟩
  · rw [read?_whole hsign hds hne hexponent, Option.isSome_map]
    exact isSome_readExponent?_iff.mpr hexponent
  · rw [read?_point hsign hds hfs hne hexponent, Option.isSome_map]
    exact isSome_readExponent?_iff.mpr hexponent

end Decimal

theorem Number.isSome_read?_iff {s : String} : (read? s).isSome ↔ IsDecimal s.toList := by
  rw [read?, Option.isSome_map, Decimal.isSome_read?_iff]

theorem Number.isDecimal_of_read? {t : String} {n : Number} (h : Number.read? t = some n) :
    IsDecimal t.toList :=
  isSome_read?_iff.mp (Option.isSome_of_mem h)

theorem IsDecimal.ne_nil (h : IsDecimal cs) : cs ≠ [] := by
  obtain ⟨-, ⟨-, hne⟩ | -, -⟩ := h <;> simp_all

/-- The text without its signs. -/
def dropSigns (cs : List Char) : List Char := cs.filter fun c => c ≠ '+' ∧ c ≠ '-'

@[simp] theorem dropSigns_append (cs ds : List Char) :
    dropSigns (cs ++ ds) = dropSigns cs ++ dropSigns ds :=
  List.filter_append ..

theorem IsDigits.dropSigns_eq (h : IsDigits ds) : dropSigns ds = ds :=
  List.filter_eq_self.mpr fun d hd => decide_eq_true (ne_sign_of_isDigit (h d hd))

theorem IsSign.dropSigns_eq (h : IsSign sign) : dropSigns sign = [] := by
  rcases h with rfl | rfl | rfl <;> rfl

theorem IsMantissa.dropSigns_eq (h : IsMantissa cs) : dropSigns cs = cs := by
  cases h with
  | whole hds => exact hds.dropSigns_eq
  | point hds hfs =>
    rw [dropSigns_append, hds.dropSigns_eq]
    exact congrArg _ (congrArg _ hfs.dropSigns_eq)

theorem IsExponent.dropSigns_some {mark : Char} (hmark : mark = 'e' ∨ mark = 'E')
    (hsign : IsSign sign) (hds : IsDigits ds) :
    dropSigns (mark :: (sign ++ ds)) = mark :: ds := by
  have hkept : dropSigns [mark] = [mark] := by rcases hmark with rfl | rfl <;> rfl
  rw [← List.singleton_append, dropSigns_append, dropSigns_append, hkept, hsign.dropSigns_eq,
    hds.dropSigns_eq]
  rfl

theorem isExponent_dropSigns (h : IsExponent cs) : IsExponent (dropSigns cs) := by
  cases h with
  | none => exact .none
  | some hmark hsign hds hne =>
    rw [IsExponent.dropSigns_some hmark hsign hds]
    exact .some hmark (.inl rfl : IsSign []) hds hne

theorem isDecimal_dropSigns (h : IsDecimal cs) : IsDecimal (dropSigns cs) := by
  obtain ⟨hsign, hmantissa, hexponent⟩ := h
  rw [dropSigns_append, dropSigns_append, hsign.dropSigns_eq, hmantissa.dropSigns_eq]
  exact .intro (.inl rfl) hmantissa (isExponent_dropSigns hexponent)

/-- The characters of decimal spellings that are not signs. -/
def isDecimalChar (c : Char) : Bool := c.isDigit || c = '.' || c = 'e' || c = 'E'

theorem isDecimalChar_of_mem_dropSigns (h : IsDecimal cs) :
    ∀ c ∈ dropSigns cs, isDecimalChar c := by
  have hdigits {ds : List Char} (hds : IsDigits ds) : ∀ d ∈ ds, isDecimalChar d := by
    intro d hd
    simp [isDecimalChar, hds d hd]
  obtain ⟨hsign, hmantissa, hexponent⟩ := h
  rw [dropSigns_append, dropSigns_append, hsign.dropSigns_eq, hmantissa.dropSigns_eq]
  simp only [List.nil_append, List.mem_append]
  rintro c (hc | hc)
  · rcases hmantissa with ⟨hds, -⟩ | ⟨hds, hfs, -⟩
    · exact hdigits hds c hc
    · rcases List.mem_append.mp hc with hc | hc
      · exact hdigits hds c hc
      · rcases List.mem_cons.mp hc with rfl | hc
        · rfl
        · exact hdigits hfs c hc
  · cases hexponent with
    | none => cases hc
    | some hmark hsign hds =>
      rw [IsExponent.dropSigns_some hmark hsign hds] at hc
      rcases List.mem_cons.mp hc with rfl | hc
      · rcases hmark with rfl | rfl <;> rfl
      · exact hdigits hds c hc

/-- A sign that is not a minus does not count. -/
theorem IsSign.takeSign_eq (h : IsSign sign) (hminus : '-' ∉ sign) : (takeSign sign).1 = false := by
  rcases h with rfl | rfl | rfl
  · rfl
  · rfl
  · exact absurd (List.mem_singleton_self _) hminus

theorem Decimal.readExponent?_dropSigns (h : IsExponent cs) (hminus : '-' ∉ cs) :
    readExponent? (dropSigns cs) = readExponent? cs := by
  cases h with
  | none => rfl
  | @some mark sign ds hmark hsign hds hne =>
    have hsigned : '-' ∉ sign := fun hmem => hminus (by simp [hmem])
    have hbare := readExponent?_eq hmark (.inl rfl : IsSign []) hds hne
    rw [List.nil_append] at hbare
    rw [IsExponent.dropSigns_some hmark hsign hds, hbare, readExponent?_eq hmark hsign hds hne,
      hsign.takeSign_eq hsigned]
    rfl

/-- Plus signs do not count. -/
theorem Decimal.read?_dropSigns (h : IsDecimal cs) (hminus : '-' ∉ cs) :
    read? (dropSigns cs) = read? cs := by
  obtain @⟨sign, mantissa, exponent, hsign, hmantissa, hexponent⟩ := h
  simp only [List.mem_append, not_or] at hminus
  obtain ⟨⟨hsigned, -⟩, hexponentSigned⟩ := hminus
  have hread := readExponent?_dropSigns hexponent hexponentSigned
  rw [dropSigns_append, dropSigns_append, hsign.dropSigns_eq, hmantissa.dropSigns_eq]
  rcases hmantissa with ⟨hds, hne⟩ | ⟨hds, hfs, hne⟩
  · rw [read?_whole (.inl rfl) hds hne (isExponent_dropSigns hexponent),
      read?_whole hsign hds hne hexponent, hread, hsign.takeSign_eq hsigned]
    rfl
  · rw [read?_point (.inl rfl) hds hfs hne (isExponent_dropSigns hexponent),
      read?_point hsign hds hfs hne hexponent, hread, hsign.takeSign_eq hsigned]
    rfl

end RelTrace
