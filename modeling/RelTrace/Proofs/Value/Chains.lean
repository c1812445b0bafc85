import RelTrace.Proofs.Value.Places
import RelTrace.Relation.Algebra

/-!
# Chains of comparisons

Three values compare transitively as long as they all meet on the line of numbers, or all as texts.
Where two texts meet each other as texts and a third value as numbers, chains break: the text `10`
comes before the text `2`, which is below the number three, which is below the text `10`. The
thresholds of selections are numbers, so a row meets them on the line only, and a weaker threshold
after a stronger one changes nothing.

## Main definitions

* `Value.PlacedBy`: the places of two values are related.
-/

namespace RelTrace

namespace Value

variable {a b c v w : Value} {R S T : Int → Int → Prop}

/-- Both values have places, and the relation holds of these. -/
def PlacedBy (R : Int → Int → Prop) (v w : Value) : Prop :=
  ∃ p q, v.place? = some p ∧ w.place? = some q ∧ R p q

theorem PlacedBy.trans (hab : PlacedBy R a b) (hbc : PlacedBy S b c)
    (h : ∀ p q r, R p q → S q r → T p r) : PlacedBy T a c := by
  obtain ⟨p, q, hp, hq, hpq⟩ := hab
  obtain ⟨q', r, hq', hr, hqr⟩ := hbc
  obtain rfl : q = q' := Option.some.inj (hq.symm.trans hq')
  exact ⟨p, r, hp, hr, h p q r hpq hqr⟩

section OnLine

variable (h : ¬ (v.isText ∧ w.isText))
include h

theorem looselyEqual_iff_placedBy : v.looselyEqual w ↔ PlacedBy (· = ·) v w := by
  rw [looselyEqual_of_not_texts h]
  grind [PlacedBy]

theorem looselyCompare?_eq_lt_iff_placedBy :
    v.looselyCompare? w = some .lt ↔ PlacedBy (· < ·) v w := by
  rw [looselyCompare?_of_not_texts h, PlacedBy]
  cases v.place? <;> cases w.place? <;> simp [Int.compare_eq_lt]

theorem looselyCompare?_le_iff_placedBy :
    v.looselyCompare? w = some .lt ∨ v.looselyCompare? w = some .eq ↔ PlacedBy (· ≤ ·) v w := by
  rw [looselyCompare?_of_not_texts h, PlacedBy]
  cases v.place? <;> cases w.place? <;> simp [Int.compare_eq_lt, Int.le_iff_lt_or_eq]

end OnLine

theorem eq_of_looselyEqual_texts (hv : v.isText) (hw : w.isText) (h : v.looselyEqual w) :
    v = w := by
  obtain ⟨s, rfl⟩ := isText_iff.mp hv
  obtain ⟨t, rfl⟩ := isText_iff.mp hw
  simpa [looselyEqual] using h

/-- Values that equal one value are equal, unless they are texts and it is none. -/
theorem looselyEqual_trans (h : a.isText → c.isText → b.isText) (hab : a.looselyEqual b)
    (hbc : b.looselyEqual c) : a.looselyEqual c := by
  by_cases hfirst : a.isText ∧ b.isText
  · exact eq_of_looselyEqual_texts hfirst.1 hfirst.2 hab ▸ hbc
  by_cases hlast : b.isText ∧ c.isText
  · exact eq_of_looselyEqual_texts hlast.1 hlast.2 hbc ▸ hab
  have hends : ¬ (a.isText ∧ c.isText) := fun hac => hfirst ⟨hac.1, h hac.1 hac.2⟩
  rw [looselyEqual_iff_placedBy] at * <;> try assumption
  exact hab.trans hbc fun _ _ _ => Eq.trans

/-- The order is transitive along values of which at most one is a text, or all are. -/
theorem looselyCompare?_lt_trans
    (h : [a, b, c].countP isText ≤ 1 ∨ [a, b, c].countP isText = 3)
    (hab : a.looselyCompare? b = some .lt)
    (hbc : b.looselyCompare? c = some .lt ∨ b.looselyCompare? c = some .eq) :
    a.looselyCompare? c = some .lt := by
  by_cases htexts : a.isText ∧ b.isText ∧ c.isText
  · obtain ⟨⟨s, rfl⟩, ⟨t, rfl⟩, ⟨u, rfl⟩⟩ :=
      htexts.imp isText_iff.mp (And.imp isText_iff.mp isText_iff.mp)
    simp only [looselyCompare?, Option.some.injEq, compareTexts_eq_lt_iff,
      compareTexts_eq_eq_iff] at hab hbc ⊢
    rcases hbc with hbc | rfl
    · exact String.lt_trans hab hbc
    · exact hab
  · -- No two of the values are texts, so that they all meet on the line.
    have hfirst : ¬ (a.isText ∧ b.isText) := by grind
    have hlast : ¬ (b.isText ∧ c.isText) := by grind
    have hends : ¬ (a.isText ∧ c.isText) := by grind
    rw [looselyCompare?_eq_lt_iff_placedBy hfirst] at hab
    rw [looselyCompare?_le_iff_placedBy hlast] at hbc
    rw [looselyCompare?_eq_lt_iff_placedBy hends]
    exact hab.trans hbc fun _ _ _ => Int.lt_of_lt_of_le

theorem looselyCompare?_numbers (m n : Number) :
    (number m).looselyCompare? (number n) = m.compare? n := by
  rw [looselyCompare?_of_not_texts (by simp [isText]), place?_number, place?_number,
    Number.compare?]
  cases m.rank? <;> cases n.rank? <;> rfl

end Value

namespace Comparator

theorem holds_atLeast_iff {v w : Value} :
    atLeast.holds v w ↔ w.looselyCompare? v = some .lt ∨ w.looselyCompare? v = some .eq := by
  rw [holds, decide_eq_true_iff, Value.looselyCompare?_swap v w]
  rcases v.looselyCompare? w with _ | _ | _ | _ <;> simp

section Thresholds

variable {v : Value} {m n : Number} (hmn : m.compare? n = some .lt ∨ m.compare? n = some .eq)
include hmn

/-- What is at least a number is at least every smaller one. -/
theorem holds_atLeast_of_le (h : atLeast.holds v (.number n)) : atLeast.holds v (.number m) := by
  rw [holds_atLeast_iff, Value.looselyCompare?_le_iff_placedBy (by simp [Value.isText])] at h ⊢
  rw [← Value.looselyCompare?_numbers,
    Value.looselyCompare?_le_iff_placedBy (by simp [Value.isText])] at hmn
  exact hmn.trans h fun _ _ _ => Int.le_trans

/-- What is below a number is below every larger one. -/
theorem holds_below_of_le (h : below.holds v (.number m)) : below.holds v (.number n) := by
  rw [← Value.looselyCompare?_numbers] at hmn
  rw [holds, decide_eq_true_iff] at h ⊢
  have htexts : [v, .number m, .number n].countP Value.isText ≤ 1 := by
    cases v <;> simp [Value.isText, List.countP_cons]
  exact Value.looselyCompare?_lt_trans (.inl htexts) h hmn

end Thresholds

end Comparator

/-- A comparison that holds only where another does, and never for want of the attribute, passes
over to that one. -/
theorem Comparison.holds_of_imp {t : String} {c d : Comparator} {l l' : Value} {r : Row}
    (hc : c ≠ .different) (himp : ∀ v, c.holds v l → d.holds v l') (h : holds ⟨t, c, l⟩ r) :
    holds ⟨t, d, l'⟩ r := by
  cases hfind : r.find? t with
  | none => simp [holds, hfind, hc] at h
  | some v =>
    simp only [holds, hfind] at h ⊢
    exact himp v h

theorem Relation.select_select_of_imp {c d : Condition} (h : ∀ r, c.holds r → d.holds r)
    (R : Relation) : (R.select c).select d = R.select c :=
  List.filter_eq_self.mpr fun r hr => h r (List.mem_filter.mp hr).2

/-- Comparisons are transitive where they are decided on one line, and so weaker thresholds follow
from stronger ones. -/
theorem comparisons_chain :
    (∀ a b c : Value, (a.isText → c.isText → b.isText) →
      a.looselyEqual b → b.looselyEqual c → a.looselyEqual c) ∧
    (∀ a b c : Value, [a, b, c].countP Value.isText ≤ 1 ∨ [a, b, c].countP Value.isText = 3 →
      a.looselyCompare? b = some .lt →
      b.looselyCompare? c = some .lt ∨ b.looselyCompare? c = some .eq →
      a.looselyCompare? c = some .lt) ∧
    ∀ (R : Relation) (t : String) (m n : Number),
      m.compare? n = some .lt ∨ m.compare? n = some .eq →
      (R.select (.compare ⟨t, .atLeast, .number n⟩)).select (.compare ⟨t, .atLeast, .number m⟩) =
          R.select (.compare ⟨t, .atLeast, .number n⟩) ∧
        (R.select (.compare ⟨t, .below, .number m⟩)).select (.compare ⟨t, .below, .number n⟩) =
          R.select (.compare ⟨t, .below, .number m⟩) := by
  refine ⟨fun a b c => Value.looselyEqual_trans, fun a b c => Value.looselyCompare?_lt_trans, ?_⟩
  intro R t m n hmn
  constructor
  · apply Relation.select_select_of_imp
    intro r
    exact Comparison.holds_of_imp (by decide) fun v => Comparator.holds_atLeast_of_le hmn
  · apply Relation.select_select_of_imp
    intro r
    exact Comparison.holds_of_imp (by decide) fun v => Comparator.holds_below_of_le hmn

theorem comparisons_chain_mixed :
    let one : Value := .number (.ofInt 1)
    let R : Relation :=
      [.ofList [("t", .text " 7 ")], .ofList [("t", .bool true)], .ofList [("t", .text "none")]]
    let seven : Condition := .compare ⟨"t", .atLeast, .number (.ofInt 7)⟩
    (Value.text " 1 ").looselyEqual one ∧
      (Value.bool false).looselyCompare? one = some .lt ∧
      (R.select seven).length = 1 ∧
      (R.select seven).select (.compare ⟨"t", .atLeast, .number (.ofInt 1)⟩) = R.select seven := by
  intro one R seven
  have hequal :
      (Value.text " 1 ").looselyEqual (.bool true) ∧ (Value.bool true).looselyEqual one := by
    decide +kernel
  have hless : (Value.bool false).looselyCompare? (.text " .5 ") = some .lt ∧
      (Value.text " .5 ").looselyCompare? one = some .lt := by decide +kernel
  have hthresholds : (Number.ofInt 1).compare? (.ofInt 7) = some .lt := by decide +kernel
  obtain ⟨hequals, horder, hselect⟩ := comparisons_chain
  exact ⟨hequals _ _ _ (by simp [Value.isText, one]) hequal.1 hequal.2,
    horder _ _ _ (.inl (by decide +kernel)) hless.1 (.inl hless.2), by decide +kernel,
    (hselect R "t" _ _ (.inl hthresholds)).1⟩

/-- The exceptions are needed: equality breaks between texts, and the order breaks wherever two of
three values are texts. -/
theorem chains_break_between_texts :
    (∃ a b c : Value, a.isText ∧ ¬ b.isText ∧ c.isText ∧
      a.looselyEqual b ∧ b.looselyEqual c ∧ ¬ a.looselyEqual c) ∧
    ∀ x y z : Bool, [x, y, z].count true = 2 → ∃ a b c : Value,
      [a, b, c].map Value.isText = [x, y, z] ∧ a.looselyCompare? b = some .lt ∧
        b.looselyCompare? c = some .lt ∧ a.looselyCompare? c ≠ some .lt := by
  let three : Value := .number (.ofInt 3)
  -- The text 10 comes before the text 2, and three is between them on the line.
  have htexts : (Value.text "10").looselyCompare? (.text "2") = some .lt := by decide
  have htwo : (Value.text "2").looselyCompare? three = some .lt := by decide +kernel
  have hten : three.looselyCompare? (.text "10") = some .lt := by decide +kernel
  refine ⟨⟨.text "3", three, .text "3.0", by decide +kernel⟩, fun x y z hcount => ?_⟩
  cases x <;> cases y <;> cases z <;> cases hcount
  · exact ⟨three, .text "10", .text "2", rfl, hten, htexts, by decide +kernel⟩
  · exact ⟨.text "2", three, .text "10", rfl, htwo, hten, by decide⟩
  · exact ⟨.text "10", .text "2", three, rfl, htexts, htwo, by decide +kernel⟩

end RelTrace
