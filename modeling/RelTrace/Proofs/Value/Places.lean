import RelTrace.Condition
import RelTrace.Proofs.Number.Equality

/-!
# Places of values

Two texts are compared as texts. Any other two values are compared by the places on the line of the
numbers that they read as, truth values included. Texts and places are linearly ordered, so the six
comparisons of a pair of values belong to one order: where the values can be compared at all,
exactly one of `<`, `=` and `>` holds, and the others follow from it.

## Main definitions

* `Value.place?`: the place of the number that a value reads as.
* `Value.Comparable`: the pairs of values of which one of `<`, `=` and `>` holds.
* `Comparator.IsConsistent`: what the six comparisons of one pair have to do with each other.
-/

namespace RelTrace

section CompareTexts

variable {s t u : String}

theorem compareTexts_eq_lt_iff : compareTexts s t = .lt ↔ s < t := by
  grind [compareTexts]

theorem compareTexts_eq_eq_iff : compareTexts s t = .eq ↔ s = t := by
  grind [compareTexts, String.lt_irrefl]

theorem compareTexts_swap (s t : String) : compareTexts t s = (compareTexts s t).swap := by
  have hasymm : s < t → ¬ t < s := String.lt_asymm
  have htotal : ¬ s < t → ¬ t < s → s = t := fun h h' =>
    String.le_antisymm (String.not_lt.mp h') (String.not_lt.mp h)
  grind [compareTexts, Ordering.swap_lt, Ordering.swap_eq, Ordering.swap_gt, String.lt_irrefl]

end CompareTexts

namespace Number

theorem isSome_rank?_iff {n : Number} : n.rank?.isSome ↔ ∀ payload, n ≠ nan payload := by
  cases n <;> simp [rank?]

theorem isSome_rank?_ofMagnitude? (negative : Bool) (size : Option Magnitude) :
    (ofMagnitude? negative size).rank?.isSome := by
  cases size <;> rfl

theorem isSome_rank?_ofInt (i : Int) : (ofInt i).rank?.isSome := by
  rw [ofInt, ofRatio]
  exact isSome_rank?_ofMagnitude? ..

end Number

theorem Decimal.isSome_rank?_toNumber (negative : Bool) (d : Decimal) :
    (d.toNumber negative).rank?.isSome := by
  unfold toNumber
  split
  · rfl
  split
  · rfl
  split
  · rfl
  · exact Number.isSome_rank?_ofMagnitude? ..

/-- What a spelling is read as has a place on the line. -/
theorem Number.isSome_rank?_of_read? {s : String} {n : Number} (h : read? s = some n) :
    n.rank?.isSome := by
  obtain ⟨⟨negative, d⟩, -, rfl⟩ := Option.map_eq_some_iff.mp h
  exact d.isSome_rank?_toNumber negative

namespace Value

variable {v w : Value}

/-- Whether the value is a text. -/
def isText : Value → Bool
  | text _ => true
  | _ => false

/-- The place on the line of the number that the value reads as. -/
def place? (v : Value) : Option Int := v.reading?.bind Number.rank?

theorem isText_iff : v.isText ↔ ∃ s, v = text s := by
  cases v <;> simp [isText]

theorem place?_bool (b : Bool) : (bool b).place? = some (if b then (unit : Int) else 0) := by
  cases b <;> decide +kernel

theorem place?_number (n : Number) : (number n).place? = n.rank? := by
  cases n <;> rfl

theorem isSome_rank?_of_reading? {n : Number} (h : v.reading? = some n) : n.rank?.isSome := by
  cases v with
  | bool b =>
    obtain rfl := Option.some.inj h
    exact Number.isSome_rank?_ofInt _
  | number m =>
    cases m with
    | nan => cases h
    | infinite | finite =>
      obtain rfl := Option.some.inj h
      exact Number.isSome_rank?_iff.mpr nofun
  | text s =>
    rw [reading?] at h
    split at h
    · obtain rfl := Option.some.inj h
      rfl
    · exact Number.isSome_rank?_of_read? h

/-- Every number that a value reads as has a place. -/
theorem isSome_place?_iff : v.place?.isSome ↔ v.reading?.isSome := by
  rw [place?]
  cases h : v.reading? with
  | none => rfl
  | some n => simpa using isSome_rank?_of_reading? h

/-- Unless both values are texts, they are ordered as their places. -/
theorem looselyCompare?_of_not_texts (h : ¬ (v.isText ∧ w.isText)) :
    v.looselyCompare? w = v.place?.bind fun p => w.place?.map (compare p) := by
  have hreading : v.looselyCompare? w = v.reading?.bind fun m => w.reading?.bind m.compare? := by
    cases hv : v.reading? <;> cases hw : w.reading? <;> cases v <;> cases w <;>
      simp_all [looselyCompare?, isText]
  rw [hreading, place?, place?]
  cases v.reading? with
  | none => rfl
  | some m =>
    cases w.reading? with
    | none => simp
    | some n => cases hm : m.rank? <;> cases hn : n.rank? <;> simp [Number.compare?, hm, hn]

/-- Unless both values are texts, they are equal if they have one place. -/
theorem looselyEqual_of_not_texts (h : ¬ (v.isText ∧ w.isText)) :
    v.looselyEqual w ↔ ∃ place, v.place? = some place ∧ w.place? = some place := by
  by_cases hbools : ∃ a b, v = bool a ∧ w = bool b
  · obtain ⟨a, b, rfl, rfl⟩ := hbools
    have hunit : (unit : Int) ≠ 0 := by exact_mod_cast Nat.ne_of_gt unit_pos
    rw [place?_bool, place?_bool]
    generalize (unit : Int) = place at hunit
    cases a <;> cases b <;> simp [looselyEqual, hunit, hunit.symm]
  · have hreading : v.looselyEqual w =
        (v.reading?.bind fun m => w.reading?.map m.equal).getD false := by
      cases hv : v.reading? <;> cases hw : w.reading? <;> cases v <;> cases w <;>
        simp_all [looselyEqual, isText]
    rw [hreading, place?, place?]
    cases v.reading? <;> cases w.reading? <;> simp [Number.equal_iff]

/-- A value that is no text sees nothing of another value but its place. -/
theorem looselyEqual_congr {w' : Value} (hv : ¬ v.isText) (h : w.place? = w'.place?) :
    v.looselyEqual w = v.looselyEqual w' := by
  rw [Bool.eq_iff_iff, looselyEqual_of_not_texts (hv ·.1), looselyEqual_of_not_texts (hv ·.1), h]

theorem looselyCompare?_congr {w' : Value} (hv : ¬ v.isText) (h : w.place? = w'.place?) :
    v.looselyCompare? w = v.looselyCompare? w' := by
  rw [looselyCompare?_of_not_texts (hv ·.1), looselyCompare?_of_not_texts (hv ·.1), h]

/-- Equality is the middle of the order. -/
theorem looselyEqual_iff (v w : Value) : v.looselyEqual w ↔ v.looselyCompare? w = some .eq := by
  by_cases h : v.isText ∧ w.isText
  · obtain ⟨⟨s, rfl⟩, ⟨t, rfl⟩⟩ := h.imp isText_iff.mp isText_iff.mp
    simp [looselyEqual, looselyCompare?, compareTexts_eq_eq_iff]
  · rw [looselyEqual_of_not_texts h, looselyCompare?_of_not_texts h]
    cases v.place? <;> cases w.place? <;> simp
    exact eq_comm

theorem looselyCompare?_swap (v w : Value) :
    w.looselyCompare? v = (v.looselyCompare? w).map Ordering.swap := by
  by_cases h : v.isText ∧ w.isText
  · obtain ⟨⟨s, rfl⟩, ⟨t, rfl⟩⟩ := h.imp isText_iff.mp isText_iff.mp
    exact congrArg some (compareTexts_swap s t)
  · rw [looselyCompare?_of_not_texts h, looselyCompare?_of_not_texts fun h' => h h'.symm]
    cases v.place? <;> cases w.place? <;> simp [Int.compare_swap]

theorem looselyEqual_comm (v w : Value) : v.looselyEqual w = w.looselyEqual v := by
  rw [Bool.eq_iff_iff, looselyEqual_iff, looselyEqual_iff, looselyCompare?_swap v w]
  rcases v.looselyCompare? w with _ | _ | _ | _ <;> simp

/-- Both values are texts, or both read as numbers. -/
def Comparable (v w : Value) : Prop :=
  (v.isText ∧ w.isText) ∨ (v.reading?.isSome ∧ w.reading?.isSome)

theorem isSome_looselyCompare?_iff : (v.looselyCompare? w).isSome ↔ v.Comparable w := by
  by_cases h : v.isText ∧ w.isText
  · obtain ⟨⟨s, rfl⟩, ⟨t, rfl⟩⟩ := h.imp isText_iff.mp isText_iff.mp
    exact iff_of_true rfl (.inl h)
  · rw [looselyCompare?_of_not_texts h, Comparable, ← isSome_place?_iff, ← isSome_place?_iff]
    cases v.place? <;> cases w.place? <;> simp [h]

end Value

namespace Comparator

/-- Of the comparisons, the stricter ones of which at most one can hold. -/
def strict : List Comparator := [below, same, above]

/-- What the comparisons of one pair of values have to do with each other, where `comparable` says
whether the pair can be compared. -/
structure IsConsistent (holds : Comparator → Bool) (comparable : Prop) : Prop where
  atLeast_iff : holds atLeast ↔ holds above ∨ holds same
  atMost_iff : holds atMost ↔ holds below ∨ holds same
  different_iff : holds different ↔ ¬ holds same
  at_most_one : strict.countP holds ≤ 1
  exactly_one_iff : strict.countP holds = 1 ↔ comparable
  only_different : ¬ comparable → ∀ c, holds c ↔ c = different

theorem isConsistent_holds (v literal : Value) :
    IsConsistent (fun c => c.holds v literal) (v.Comparable literal) := by
  have hequal : v.looselyEqual literal = decide (v.looselyCompare? literal = some .eq) := by
    rw [Bool.eq_iff_iff, Value.looselyEqual_iff, decide_eq_true_iff]
  rw [← Value.isSome_looselyCompare?_iff]
  -- What holds is decided by the outcome of the comparison, which is one of four.
  rcases hcompare : v.looselyCompare? literal with _ | _ | _ | _
  all_goals
    rw [hcompare] at hequal
    constructor <;> simp [holds, strict, hequal, hcompare]
  intro c
  cases c <;> simp

end Comparator

/-- The six comparisons are consistent for every pair of values. A row without the attribute only
differs from the literal. -/
theorem comparisons_consistent :
    (∀ v w : Value, v.looselyEqual w ↔ v.looselyCompare? w = some .eq) ∧
      (∀ v w : Value, v.looselyEqual w = w.looselyEqual v ∧
        w.looselyCompare? v = (v.looselyCompare? w).map Ordering.swap) ∧
      ∀ (r : Row) (name : String) (literal : Value),
        (∀ v, r.find? name = some v →
          Comparator.IsConsistent (fun c => Comparison.holds ⟨name, c, literal⟩ r)
            (v.Comparable literal)) ∧
        (r.find? name = none →
          ∀ c, Comparison.holds ⟨name, c, literal⟩ r ↔ c = .different) := by
  refine ⟨Value.looselyEqual_iff, fun v w => ⟨v.looselyEqual_comm w, v.looselyCompare?_swap w⟩, ?_⟩
  intro r name literal
  constructor
  · intro v hv
    simpa only [Comparison.holds, hv] using Comparator.isConsistent_holds v literal
  · intro hnone c
    simp [Comparison.holds, hnone]

theorem comparisons_consistent_padded :
    let r : Row := .ofList [("a", .text " 1 ")]
    r.find? "a" = some (.text " 1 ") ∧ r.find? "b" = none ∧
      Comparator.IsConsistent (fun c => Comparison.holds ⟨"a", c, .bool true⟩ r)
        (Value.Comparable (.text " 1 ") (.bool true)) ∧
      ∀ c, Comparison.holds ⟨"b", c, .bool true⟩ r ↔ c = .different := by
  intro r
  have hfind : r.find? "a" = some (.text " 1 ") := by decide
  have hnone : r.find? "b" = none := by decide
  have hrows := comparisons_consistent.2.2 r
  exact ⟨hfind, hnone, (hrows "a" _).1 _ hfind, (hrows "b" _).2 hnone⟩

end RelTrace
