import RelTrace.Text.LetterCase

/-!
# Lower-casing

The lower-case form of a text by the full Unicode rules. They look at one character at a time, with
two exceptions: the capital I with a dot becomes two characters, and a capital sigma becomes a final
sigma at the end of a word.

## Main definitions

* `lower`: the lower-case form of a text.
-/

namespace RelTrace.Text

/-- The lower-case form of a character, wherever it stands. -/
def lowerChar (c : Char) : Char :=
  match lowerRuns.find? fun r => r.first ≤ c.toNat && c.toNat ≤ r.last &&
      (c.toNat - r.first) % r.step == 0 with
  | some r => Char.ofNat (c.toNat + r.shift).toNat
  | none => c

/-- Past marks and signs that do not interrupt a word, a letter follows. -/
def meetsLetter (cs : List Char) : Bool :=
  match cs.dropWhile isCaseIgnorable with
  | c :: _ => isCased c
  | [] => false

/-- Lower-cases what follows a text that is given in reverse. -/
def lowerAfter (before : List Char) : List Char → List Char
  | [] => []
  | c :: cs =>
    let forms :=
      if c = 'Σ' then [if meetsLetter before && !meetsLetter cs then 'ς' else 'σ']
      else if c = 'İ' then ['i', '\u0307']
      else [lowerChar c]
    forms ++ lowerAfter (c :: before) cs

/-- The lower-case form of a text. -/
def lower (cs : List Char) : List Char := lowerAfter [] cs

end RelTrace.Text
