import RelTrace.Text.Blank

/-!
# Words of a text

A blank character ends a word and belongs to none, so that the words of a text are the words before
it and the words behind it.

## Main definitions

* `Text.blankCodes`: the numbers of the blank characters, one by one.
-/

namespace RelTrace.Text

/-- The numbers of the blank characters. -/
def blankCodes : List Nat :=
  [0x9, 0xa, 0xb, 0xc, 0xd, 0x20, 0x85, 0xa0, 0x1680, 0x2000, 0x2001, 0x2002, 0x2003, 0x2004,
    0x2005, 0x2006, 0x2007, 0x2008, 0x2009, 0x200a, 0x2028, 0x2029, 0x202f, 0x205f, 0x3000]

theorem toNat_mem_blankCodes {c : Char} (h : isBlank c) : c.toNat ∈ blankCodes := by
  simp only [isBlank, Bool.or_eq_true, Bool.and_eq_true, decide_eq_true_eq, beq_iff_eq] at h
  simp only [blankCodes, List.mem_cons, List.not_mem_nil]
  omega

/-- What holds of the listed characters holds of every blank one. -/
theorem forall_blank {p : Char → Prop} (h : ∀ n ∈ blankCodes, p (Char.ofNat n)) {c : Char}
    (hc : isBlank c) : p c :=
  Char.ofNat_toNat c ▸ h c.toNat (toNat_mem_blankCodes hc)

variable {c g : Char} {cs xs ys run : List Char} {rest : List (List Char)}

theorem exists_mem_consWord : (∃ word ∈ consWord run rest, c ∈ word) ↔
    c ∈ run ∨ ∃ word ∈ rest, c ∈ word := by
  cases run <;> simp [consWord]

/-- The words of a text have all its characters but the blank ones. -/
theorem exists_mem_words : (∃ word ∈ words cs, c ∈ word) ↔ c ∈ cs ∧ isBlank c = false := by
  have hfirst : (c ∈ (firstRun cs).1 ∨ ∃ word ∈ (firstRun cs).2, c ∈ word) ↔
      c ∈ cs ∧ isBlank c = false := by
    induction cs with
    | nil => simp [firstRun]
    | cons d cs ih =>
      rw [firstRun]
      dsimp only
      split
      · next hblank =>
        rw [exists_mem_consWord, ih, List.mem_cons]
        grind
      · next hblank => grind
  rw [words]
  dsimp only
  rw [exists_mem_consWord, hfirst]

theorem consWord_append (rest' : List (List Char)) :
    consWord run (rest ++ rest') = consWord run rest ++ rest' := by
  cases run <;> rfl

/-- The first run of a text ends at a blank character at the latest. -/
theorem firstRun_append_blank (hg : isBlank g) :
    firstRun (xs ++ g :: ys) = ((firstRun xs).1, (firstRun xs).2 ++ words ys) := by
  induction xs with
  | nil => simp [firstRun, hg, words]
  | cons c xs ih =>
    cases hc : isBlank c with
    | true => simp [firstRun, ih, hc, consWord_append]
    | false => simp [firstRun, ih, hc]

theorem words_append_blank (hg : isBlank g) : words (xs ++ g :: ys) = words xs ++ words ys := by
  rw [words, firstRun_append_blank hg]
  exact consWord_append (words ys)

/-- A text without blank characters is one word, unless it is empty. -/
theorem words_of_forall (h : ∀ c ∈ cs, isBlank c = false) : words cs = consWord cs [] := by
  have hfirst : firstRun cs = (cs, []) := by
    induction cs with
    | nil => rfl
    | cons c cs ih =>
      obtain ⟨hc, hcs⟩ := List.forall_mem_cons.mp h
      simp [firstRun, hc, ih hcs]
  rw [words, hfirst]

end RelTrace.Text
