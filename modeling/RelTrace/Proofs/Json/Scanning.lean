import Mathlib.Data.List.TakeWhile
import RelTrace.Json.Document
import RelTrace.Proofs.Json.Numbers
import RelTrace.Proofs.Number.Numerals

/-!
# Numerals in JSON texts

A numeral is scanned as a single number of a JSON text, which is found from the digits and the
exponent of the numeral. As long as the digits fit 64 bits none of them is left out, and where the
point stands among them does not matter.

## Main definitions

* `Json.approximate?`: the magnitude that a decimal with few digits is read as.
-/

namespace RelTrace

namespace Json

/-- The magnitude that a decimal is read as, if its coefficient fits 64 bits. The coefficient and
the power of ten are both rounded before they are put together. -/
def approximate? (d : Decimal) : Option Magnitude :=
  (Magnitude.round? (d.coefficient * unit) 1).bind fun m => scale m d.exponent

theorem le_ofDigitChars (ds : List Char) (k : ℕ) : k ≤ Nat.ofDigitChars 10 ds k := by
  rw [Nat.ofDigitChars_eq_ofDigitChars_zero]
  exact (Nat.le_mul_of_pos_left k (by positivity)).trans (Nat.le_add_right ..)

/-- Digits that fit are all gathered. -/
theorem gather_eq {ds : List Char} {k : ℕ} (h : Nat.ofDigitChars 10 ds k < significandBound) :
    gather k ds = (Nat.ofDigitChars 10 ds k, 0) := by
  induction ds generalizing k with
  | nil => rfl
  | cons d ds ih =>
    rw [Nat.ofDigitChars_cons] at h ⊢
    have hlonger : 10 * k + (d.toNat - 48) < significandBound := (le_ofDigitChars ds _).trans_lt h
    rw [gather, if_pos hlonger]
    exact ih h

end Json

namespace Numeral

open Json

variable {negative : Bool} {n : Numeral}

theorem readNumber?_eq (h : n.decimal.coefficient < significandBound) :
    readNumber? negative n.whole n.fraction n.power =
      (approximate? n.decimal).map (.finite negative) := by
  have hfraction : n.decimal.coefficient =
      Nat.ofDigitChars 10 n.fraction (Nat.ofDigitChars 10 n.whole 0) := by
    rw [decimal, digitsValue_eq, Nat.ofDigitChars_append]
  rw [hfraction] at h
  have hwhole := gather_eq ((le_ofDigitChars n.fraction _).trans_lt h)
  have hshift : n.power + (((0 : ℕ) : ℤ) - ((n.fraction.length - 0 : ℕ) : ℤ)) =
      n.decimal.exponent := by
    simp [decimal, sub_eq_add_neg]
  simp only [readNumber?, hwhole, gather_eq h, approximate?, hfraction, hshift, Option.map_bind]
  rfl

theorem isExponent_exponent (n : Numeral) : IsExponent n.exponent :=
  Decimal.isSome_readExponent?_iff.mp (by rw [n.readExponent?_eq]; rfl)

theorem scanWhole_text (n : Numeral) :
    scanWhole n.text = .found n.whole (pointed n.fraction ++ n.exponent) := by
  have hend : ∀ c ∈ (pointed n.fraction ++ n.exponent).head?, c.isDigit = false := by
    unfold pointed
    split
    · exact n.isExponent_exponent.not_isDigit_head
    · simp
  rw [scanWhole, text, List.append_assoc, Text.takeWhile_append_of_head? n.isDigits_whole hend,
    Text.dropWhile_append_of_head? n.isDigits_whole hend]
  split
  · next hnil => exact absurd hnil n.whole_ne_nil
  · next hzero => rcases n.leading with hwhole | hwhole <;> simp [hzero] at hwhole
  · rfl

theorem scanFraction_pointed (n : Numeral) :
    scanFraction (pointed n.fraction ++ n.exponent) = .found n.fraction n.exponent := by
  have hend := n.isExponent_exponent.not_isDigit_head
  unfold pointed
  split
  · next hnil =>
    rw [hnil, List.nil_append]
    unfold scanFraction
    split
    · next hpoint =>
      rcases n.isExponent_exponent.head?_eq '.' (by simp [hpoint]) with h | h <;> cases h
    · rfl
  · next hne =>
    rw [List.cons_append, scanFraction, Text.takeWhile_append_of_head? n.isDigits_fraction hend,
      Text.dropWhile_append_of_head? n.isDigits_fraction hend]
    split
    · next hnil => exact absurd hnil hne
    · rfl

theorem scanExponent_digits {sign ds : List Char} (hsign : IsSign sign) (hds : IsDigits ds)
    (hne : ds ≠ []) :
    scanExponent (sign ++ ds) = .found (signed (takeSign sign).1 (digitsValue ds)) [] := by
  have hhead : ∀ c ∈ ds.head?, c ≠ '+' ∧ c ≠ '-' := fun c hc =>
    ne_sign_of_isDigit (hds c (List.mem_of_mem_head? hc))
  have hwhole : ds.takeWhile Char.isDigit = ds := List.takeWhile_eq_self_iff.mpr hds
  have hrest : ds.dropWhile Char.isDigit = [] := List.dropWhile_eq_nil_iff.mpr hds
  simp only [scanExponent, takeSign_append hsign hhead, hwhole, hrest]

/-- The parts of a numeral are scanned one after another. -/
theorem scanNumber_text (negative : Bool) (n : Numeral) :
    scanNumber negative n.text =
      .found (readNumber? negative n.whole n.fraction n.power) [] := by
  have hexponent := n.isExponent_exponent
  have hpower := n.readExponent?_eq
  simp only [scanNumber, scanWhole_text, scanFraction_pointed]
  generalize n.exponent = exponent at hexponent hpower
  cases hexponent with
  | none =>
    rw [← Option.some.inj hpower]
  | some hmark hsign hds hne =>
    rw [Decimal.readExponent?_eq hmark hsign hds hne] at hpower
    obtain hpower := Option.some.inj hpower
    rcases hmark with rfl | rfl <;> simp only [scanExponent_digits hsign hds hne, hpower]

theorem tokens_text (negative : Bool) (n : Numeral) :
    tokens (withSign negative n.text) =
      [.number (readNumber? negative n.whole n.fraction n.power)] := by
  have hscan := n.scanNumber_text negative
  cases negative with
  | true =>
    have htoken : tokenAt '-' n.text = (scanNumber true n.text).token false .number := rfl
    rw [withSign, if_pos rfl, tokens_of_not_isSpace rfl, htoken, hscan]
    simp [Scan.token, tokens]
  | false =>
    obtain ⟨c, cs, hcs⟩ := List.exists_cons_of_ne_nil n.whole_ne_nil
    have hdigit : c.isDigit := n.isDigits_whole c (by simp [hcs])
    have htext : n.text = c :: (cs ++ pointed n.fraction ++ n.exponent) := by simp [text, hcs]
    rw [withSign, if_neg Bool.false_ne_true, htext,
      tokens_of_not_isSpace (isSpace_eq_false (.inr hdigit)), tokenAt_of_isDigit hdigit, ← htext,
      hscan]
    simp [Scan.token, tokens]

/-- A text that is one numeral is read as a number, unless it is too large. -/
theorem decode_text (room : ℕ) (negative : Bool) (n : Numeral) :
    decode (Value.decode room) (String.ofList (withSign negative n.text)) =
      match readNumber? negative n.whole n.fraction n.power with
      | some m => .ok (.number m)
      | none => .error .malformed := by
  rw [decode, String.toList_ofList, draft, tokens_text]
  cases readNumber? negative n.whole n.fraction n.power <;> rfl

theorem decode_text_of_approximate? {m : Magnitude} (room : ℕ)
    (h : n.decimal.coefficient < significandBound) (hm : approximate? n.decimal = some m) :
    decode (Value.decode room) (String.ofList (withSign negative n.text)) =
      .ok (.number (.finite negative m)) := by
  rw [decode_text, readNumber?_eq h, hm, Option.map_some]

end Numeral

end RelTrace
