import RelTrace.Proofs.Text.Words
import RelTrace.Text.LowerCase

/-!
# Lower-cased texts

Lower-case forms have no lower-case forms of their own, so that lower-casing a second time changes
nothing, wherever a sigma stands. Blank characters are neither letters nor marks within a word: what
stands on one side of a blank character does not decide about a sigma on the other side, and a text
is lower-cased piece by piece.

## Main definitions

* `Text.capitals`, `Text.lowerForms`: the characters that lower-casing changes, and what they
  become, by their numbers.
* `Text.IsLower`: the characters that lower-casing leaves as they are.
-/

namespace RelTrace.Text

/-- Numbers as the bits of one number. Two lists are compared at once by their bits, where going
through one list for every number of the other takes far too long. -/
def bits (codes : List Nat) : Nat := codes.foldr (fun n m => 1 <<< n ||| m) 0

theorem testBit_bits {n : Nat} {codes : List Nat} : (bits codes).testBit n ↔ n ∈ codes := by
  induction codes with
  | nil => simp [bits]
  | cons m codes ih =>
    rw [bits, List.foldr_cons, Nat.testBit_or, Bool.or_eq_true, Nat.one_shiftLeft,
      Nat.testBit_two_pow, decide_eq_true_eq, List.mem_cons, eq_comm]
    exact or_congr Iff.rfl ih

theorem notMem_of_bits {xs ys : List Nat} (h : bits xs &&& bits ys = 0) {n : Nat} (hn : n ∈ xs) :
    n ∉ ys := by
  intro hmem
  have hboth : (bits xs &&& bits ys).testBit n := by
    rw [Nat.testBit_and, testBit_bits.mpr hn, testBit_bits.mpr hmem, Bool.and_self]
  rw [h, Nat.zero_testBit] at hboth
  cases hboth

/-- The characters of a run. -/
def LowerRun.codes (r : LowerRun) : List Nat :=
  List.range' r.first ((r.last - r.first) / r.step + 1) r.step

/-- The characters with a lower-case form of one character. -/
def capitals : List Nat := lowerRuns.flatMap LowerRun.codes

/-- The lower-case forms. -/
def lowerForms : List Nat :=
  lowerRuns.flatMap fun r => r.codes.map fun n : Nat => (n + r.shift).toNat

/-- Lower-casing leaves the character as it is. -/
def IsLower (c : Char) : Prop := lower [c] = [c]

instance : DecidablePred IsLower := fun c => inferInstanceAs (Decidable (lower [c] = [c]))

variable {c g : Char} {n : Nat} {before cs xs ys zs : List Char}

theorem LowerRun.mem_codes {r : LowerRun} (hfirst : r.first ≤ n) (hlast : n ≤ r.last)
    (hstep : (n - r.first) % r.step = 0) : n ∈ r.codes := by
  have hdivide := Nat.div_add_mod (n - r.first) r.step
  have hle : (n - r.first) / r.step ≤ (r.last - r.first) / r.step :=
    Nat.div_le_div_right (by omega)
  exact List.mem_range'.mpr ⟨(n - r.first) / r.step, by omega, by omega⟩

theorem isValidChar_of_mem_lowerForms : ∀ n ∈ lowerForms, n.isValidChar := by
  decide +kernel

/-- A character stays as it is unless it belongs to a run, which has its lower-case form. -/
theorem lowerChar_cases (c : Char) :
    lowerChar c = c ∨ c.toNat ∈ capitals ∧ (lowerChar c).toNat ∈ lowerForms := by
  unfold lowerChar
  split
  · next r hr =>
    have hmem := List.mem_of_find?_eq_some hr
    have hcode : c.toNat ∈ r.codes := by
      have hcovers := List.find?_some hr
      simp only [Bool.and_eq_true, decide_eq_true_eq, beq_iff_eq] at hcovers
      exact LowerRun.mem_codes hcovers.1.1 hcovers.1.2 hcovers.2
    have hform : (c.toNat + r.shift).toNat ∈ lowerForms :=
      List.mem_flatMap.mpr ⟨r, hmem, List.mem_map_of_mem hcode⟩
    have hvalid := isValidChar_of_mem_lowerForms _ hform
    rw [Char.ofNat, dif_pos hvalid]
    exact .inr ⟨List.mem_flatMap.mpr ⟨r, hmem, hcode⟩, hform⟩
  · exact .inl rfl

theorem lowerChar_of_notMem (h : c.toNat ∉ capitals) : lowerChar c = c :=
  (lowerChar_cases c).resolve_right fun hcapital => h hcapital.1

/-- No lower-case form has a lower-case form or is blank. -/
theorem notMem_of_mem_lowerForms (h : n ∈ lowerForms) :
    n ∉ capitals ∧ n ≠ 'İ'.toNat ∧ n ∉ blankCodes := by
  have hbits : bits lowerForms &&& bits (capitals ++ 'İ'.toNat :: blankCodes) = 0 := by
    decide +kernel
  have hnot := notMem_of_bits hbits h
  simpa only [List.mem_append, List.mem_cons, not_or] using hnot

theorem isLower_iff : IsLower c ↔ c ≠ 'Σ' ∧ c ≠ 'İ' ∧ lowerChar c = c := by
  rw [IsLower, lower, lowerAfter, lowerAfter]
  by_cases hsigma : c = 'Σ'
  · subst hsigma
    decide
  · by_cases hdotted : c = 'İ'
    · subst hdotted
      decide
    · simp [hsigma, hdotted]

/-- The lower-case form of a character is the character itself, or it is not blank and has no
lower-case form. -/
theorem lowerChar_spec (c : Char) :
    lowerChar c = c ∨ isBlank (lowerChar c) = false ∧ IsLower (lowerChar c) := by
  refine (lowerChar_cases c).imp_right fun ⟨_, hform⟩ => ?_
  obtain ⟨hcapital, hdotted, hblank⟩ := notMem_of_mem_lowerForms hform
  refine ⟨Bool.eq_false_iff.mpr fun h => hblank (toNat_mem_blankCodes h), isLower_iff.mpr ⟨?_, ?_,
    lowerChar_of_notMem hcapital⟩⟩
  · intro hsigma
    rw [hsigma] at hcapital
    exact hcapital (by decide +kernel)
  · intro h
    rw [h] at hdotted
    exact hdotted rfl

theorem isLower_of_isBlank (hg : isBlank g) : IsLower g :=
  forall_blank (by decide +kernel) hg

theorem lowerAfter_cons_of_isLower (hc : IsLower c) :
    lowerAfter before (c :: cs) = c :: lowerAfter (c :: before) cs := by
  obtain ⟨hsigma, hdotted, hlower⟩ := isLower_iff.mp hc
  simp [lowerAfter, hsigma, hdotted, hlower]

/-- A character stays as it is, if lower-casing does not change it, or is replaced by characters
that are not blank and not changed any more. -/
theorem exists_lowerAfter_cons (before : List Char) (c : Char) (cs : List Char) :
    ∃ forms, lowerAfter before (c :: cs) = forms ++ lowerAfter (c :: before) cs ∧
      (forms = [c] ∧ IsLower c ∨
        forms ≠ [] ∧ ∀ d ∈ forms, isBlank d = false ∧ IsLower d) := by
  refine ⟨_, rfl, ?_⟩
  split
  · refine .inr ⟨List.cons_ne_nil _ _, List.forall_mem_singleton.mpr ?_⟩
    split <;> decide
  · next hsigma =>
    split
    · refine .inr ⟨List.cons_ne_nil _ _, List.forall_mem_cons.mpr ⟨by decide, ?_⟩⟩
      exact List.forall_mem_singleton.mpr (by decide)
    · next hdotted =>
      rcases lowerChar_spec c with hc | hform
      · rw [hc]
        exact .inl ⟨rfl, isLower_iff.mpr ⟨hsigma, hdotted, hc⟩⟩
      · exact .inr ⟨List.cons_ne_nil _ _, List.forall_mem_singleton.mpr hform⟩

theorem isLower_of_mem_lowerAfter (h : c ∈ lowerAfter before cs) : IsLower c := by
  induction cs generalizing before with
  | nil => cases h
  | cons d cs ih =>
    obtain ⟨forms, heq, hforms⟩ := exists_lowerAfter_cons before d cs
    rw [heq] at h
    rcases List.mem_append.mp h with hc | hc
    · rcases hforms with ⟨rfl, hlower⟩ | ⟨-, hforms⟩
      · obtain rfl := List.mem_singleton.mp hc
        exact hlower
      · exact (hforms c hc).2
    · exact ih hc

/-- Lower-casing does not make a text blank. -/
theorem exists_mem_lowerAfter (h : ∃ c ∈ cs, isBlank c = false) :
    ∃ c ∈ lowerAfter before cs, isBlank c = false := by
  induction cs generalizing before with
  | nil => simp at h
  | cons d cs ih =>
    obtain ⟨forms, heq, hforms⟩ := exists_lowerAfter_cons before d cs
    rw [heq]
    obtain ⟨c, hc, hblank⟩ := h
    rcases List.mem_cons.mp hc with rfl | hc
    · rcases hforms with ⟨rfl, -⟩ | ⟨hne, hforms⟩
      · exact ⟨c, List.mem_append_left _ (List.mem_singleton_self c), hblank⟩
      · obtain ⟨form, hform⟩ := List.exists_mem_of_ne_nil forms hne
        exact ⟨form, List.mem_append_left _ hform, (hforms form hform).1⟩
    · obtain ⟨c', hc', hblank'⟩ := ih ⟨c, hc, hblank⟩
      exact ⟨c', List.mem_append_right _ hc', hblank'⟩

/-- A text of characters that stay as they are stays as it is, wherever it stands. -/
theorem lowerAfter_of_forall (h : ∀ c ∈ cs, IsLower c) : lowerAfter before cs = cs := by
  induction cs generalizing before with
  | nil => rfl
  | cons c cs ih =>
    obtain ⟨hc, hcs⟩ := List.forall_mem_cons.mp h
    rw [lowerAfter_cons_of_isLower hc, ih hcs]

/-- A blank character is neither a letter nor a mark within a word. -/
theorem isCased_eq_false_of_isBlank (hg : isBlank g) :
    isCased g = false ∧ isCaseIgnorable g = false := by
  refine forall_blank (p := fun g => isCased g = false ∧ isCaseIgnorable g = false) ?_ hg
  decide +kernel

/-- What stands behind a blank character decides nothing about the word before it. -/
theorem meetsLetter_append_blank (hg : isBlank g) (rest : List Char) :
    meetsLetter (zs ++ g :: rest) = meetsLetter zs := by
  induction zs with
  | nil => simp [meetsLetter, isCased_eq_false_of_isBlank hg]
  | cons z zs ih =>
    cases hz : isCaseIgnorable z with
    | true => simpa [meetsLetter, List.dropWhile_cons, hz] using ih
    | false => simp [meetsLetter, hz]

/-- What stands before a blank character decides nothing about the words behind it. -/
theorem lowerAfter_blank (hg : isBlank g) (zs : List Char) :
    lowerAfter (zs ++ g :: before) ys = lowerAfter zs ys := by
  -- what has been passed since the blank character grows along the text
  induction ys generalizing zs with
  | nil => rfl
  | cons y ys ih =>
    rw [lowerAfter, lowerAfter, ← List.cons_append, ih, meetsLetter_append_blank hg]

theorem lowerAfter_append_blank (hg : isBlank g) :
    lowerAfter before (xs ++ g :: ys) = lowerAfter before xs ++ g :: lower ys := by
  induction xs generalizing before with
  | nil =>
    have hrest : lowerAfter (g :: before) ys = lower ys := lowerAfter_blank hg []
    rw [List.nil_append, lowerAfter_cons_of_isLower (isLower_of_isBlank hg), hrest, lowerAfter,
      List.nil_append]
  | cons x xs ih =>
    rw [List.cons_append, lowerAfter, lowerAfter, ih, meetsLetter_append_blank hg,
      List.append_assoc]

/-- A text is lower-cased piece by piece between its blank characters. -/
theorem lower_append_blank (hg : isBlank g) : lower (xs ++ g :: ys) = lower xs ++ g :: lower ys :=
  lowerAfter_append_blank hg

end RelTrace.Text
