import RelTrace.Proofs.Json.Scaling
import RelTrace.Proofs.Relation.Identity
import RelTrace.Proofs.Value.Literals

/-!
# Integers as values

Doubles hold the integers of moderate size exactly and keep them apart. Such an integer is written
with its own digits wherever it is written, and it is read from them wherever it is read. So rows
that are matched by integers are matched as the integers are.

## Main definitions

* `Value.ofInt`: an integer as a value.
-/

namespace RelTrace

variable {i j : ℤ}

/-- An integer as a value. -/
def Value.ofInt (i : ℤ) : Value := .number (.ofInt i)

theorem toString_eq_integerText (i : ℤ) : toString i = String.ofList (integerText i) := by
  cases i with
  | ofNat n => exact Nat.toString_eq_ofList_toDigits
  | negSucc n =>
    have hneg : Int.negSucc n < 0 := Int.negSucc_lt_zero n
    have htext : toString (Int.negSucc n) = "-" ++ toString (n + 1) := rfl
    rw [htext, Nat.toString_eq_ofList_toDigits]
    simp [integerText, withSign, hneg]

theorem compare_mul_right {u : ℤ} (hu : 0 < u) (i j : ℤ) :
    compare (i * u) (j * u) = compare i j := by
  rcases lt_trichotomy i j with hlt | rfl | hgt
  · rw [compare_lt_iff_lt.mpr hlt, compare_lt_iff_lt.mpr (mul_lt_mul_of_pos_right hlt hu)]
  · rw [compare_eq_iff_eq.mpr rfl, compare_eq_iff_eq.mpr rfl]
  · rw [compare_gt_iff_gt.mpr hgt, compare_gt_iff_gt.mpr (mul_lt_mul_of_pos_right hgt hu)]

namespace Number

theorem exists_ofInt (h : i.natAbs < integerBound) :
    ∃ m, ofInt i = finite (i < 0) m ∧ m.quanta = i.natAbs * unit := by
  have hbound : integerBound ≤ 2 ^ 53 := by decide
  obtain ⟨m, hround, hm⟩ := Json.exists_round?_eq (h.le.trans hbound)
  exact ⟨m, by rw [ofInt, ofRatio, hround, ofMagnitude?], hm⟩

theorem integer?_ofInt (h : i.natAbs < integerBound) : (ofInt i).integer? = some i := by
  obtain ⟨m, hi, hm⟩ := exists_ofInt h
  have hwhole : m.whole? = some i.natAbs := by
    simp [Magnitude.whole?, hm, Nat.mul_div_cancel _ unit_pos]
  rw [hi, integer?, hwhole]
  simp only [h, if_true, signed_natAbs]

theorem rank?_ofInt (h : i.natAbs < integerBound) : (ofInt i).rank? = some (i * unit) := by
  obtain ⟨m, hi, hm⟩ := exists_ofInt h
  have hplace : signed (i < 0) (i.natAbs * unit) = signed (i < 0) i.natAbs * unit := by
    simp only [signed, Nat.cast_mul]
    split
    · exact (neg_mul ..).symm
    · rfl
  rw [hi, rank?, hm, hplace, signed_natAbs]

theorem equal_ofInt_iff (hi : i.natAbs < integerBound) (hj : j.natAbs < integerBound) :
    (ofInt i).equal (ofInt j) ↔ i = j := by
  have hunit : (unit : ℤ) ≠ 0 := Int.natCast_ne_zero.mpr unit_pos.ne'
  rw [equal, rank?_ofInt hi, rank?_ofInt hj]
  exact beq_iff_eq.trans (Int.mul_eq_mul_right_iff hunit)

theorem plainText_of_integer? {n : Number} (h : n.integer? = some i) :
    n.plainText = toString i := by
  unfold plainText
  rw [h, toString_eq_integerText]

theorem jsonText?_of_integer? {n : Number} (h : n.integer? = some i) :
    n.jsonText? = some (toString i) := by
  unfold jsonText?
  rw [h, toString_eq_integerText]

/-- The digits of an integer are read as the integer. -/
theorem read?_toString (h : i.natAbs < integerBound) : read? (toString i) = some (ofInt i) := by
  obtain ⟨m, hi, hm⟩ := exists_ofInt h
  have hspells : (Numeral.ofNat i.natAbs).Spells (i < 0) (i < 0) m :=
    ⟨fun _ => rfl, by rw [Numeral.decimal_ofNat, Decimal.size?_ofNat hm]⟩
  rw [toString_eq_integerText, integerText, ← Numeral.text_ofNat, hspells.read?_eq, hi]

end Number

namespace Value

open Number (integerBound)

theorem equal_ofInt_iff (hi : i.natAbs < integerBound) (hj : j.natAbs < integerBound) :
    (ofInt i).equal (ofInt j) ↔ i = j := by
  rw [ofInt, ofInt, equal, Number.equal_ofInt_iff hi hj]

theorem place?_ofInt (h : i.natAbs < integerBound) : (ofInt i).place? = some (i * unit) := by
  rw [ofInt, place?_number, Number.rank?_ofInt h]

theorem not_isText_ofInt (i : ℤ) : ¬ (ofInt i).isText := Bool.false_ne_true

theorem looselyCompare?_ofInt (hi : i.natAbs < integerBound) (hj : j.natAbs < integerBound) :
    (ofInt i).looselyCompare? (ofInt j) = some (compare i j) := by
  rw [looselyCompare?_of_not_texts fun h => not_isText_ofInt i h.1, place?_ofInt hi,
    place?_ofInt hj, Option.bind_some, Option.map_some, compare_mul_right (Int.natCast_pos.mpr unit_pos)]

theorem looselyEqual_ofInt_iff (hi : i.natAbs < integerBound) (hj : j.natAbs < integerBound) :
    (ofInt i).looselyEqual (ofInt j) ↔ i = j := by
  rw [looselyEqual_iff, looselyCompare?_ofInt hi hj, Option.some.injEq, compare_eq_iff_eq]

/-- A text with the digits of an integer is as good as the integer. -/
theorem looselyEqual_toString (h : i.natAbs < integerBound) :
    (text (toString i)).looselyEqual (ofInt i) := by
  have hplace : (ofInt i).place? = (text (toString i)).place? :=
    place?_text_of_read? (Number.read?_toString h)
  rw [looselyEqual_comm, ← looselyEqual_congr (not_isText_ofInt i) hplace]
  exact (looselyEqual_ofInt_iff h h).mpr rfl

theorem decode_toString (room : ℕ) (h : i.natAbs < integerBound) :
    Json.decode (Value.decode room) (toString i) = .ok (ofInt i) := by
  obtain ⟨m, hi, hm⟩ := Number.exists_ofInt h
  have hsmall : integerBound ≤ 2 ^ 53 := by decide
  have hbound : integerBound ≤ Json.significandBound := by decide
  have happroximate : Json.approximate? (Numeral.ofNat i.natAbs).decimal = some m := by
    rw [Numeral.decimal_ofNat, Json.approximate?_eq_size? (h.le.trans hsmall) (by simp),
      Decimal.size?_ofNat hm]
  rw [toString_eq_integerText, integerText, ← Numeral.text_ofNat,
    Numeral.decode_text_of_approximate? room (by simpa using h.trans_le hbound) happroximate, ofInt,
    hi]

end Value

theorem Value.alike_ofInt_iff (hi : i.natAbs < Number.integerBound)
    (hj : j.natAbs < Number.integerBound) : (ofInt i).Alike (ofInt j) ↔ i = j := by
  obtain ⟨m, hm, -⟩ := Number.exists_ofInt hi
  rw [alike_iff_equal (by rw [ofInt, hm]; rfl), equal_ofInt_iff hi hj]

/-- Rows that differ in an integer have different keys. -/
theorem Row.key_insert_ofInt_iff (hi : i.natAbs < Number.integerBound)
    (hj : j.natAbs < Number.integerBound) (r : Row) (name : String) :
    key (r.insert name (.ofInt i)) = key (r.insert name (.ofInt j)) ↔ i = j := by
  constructor
  · intro h
    have hfind := Same.map_find?_eq h name
    rw [Keyed.find?_insert, Keyed.find?_insert, if_pos rfl, if_pos rfl] at hfind
    exact (Value.alike_ofInt_iff hi hj).mp (Value.unsignedZero_eq_iff.mp (Option.some.inj hfind))
  · rintro rfl
    rfl

/-- Integers of moderate size are written with their own digits, are read back from them, and are
told apart and ordered as integers. -/
theorem integers_pass_through {i j : ℤ} (hi : i.natAbs < Number.integerBound)
    (hj : j.natAbs < Number.integerBound) :
    (Value.ofInt i).plainText = toString i ∧
    (Value.ofInt i).toJson.compact = toString i ∧
    (Value.ofInt i).toJson.pretty = toString i ∧
    (Value.text (toString i)).looselyEqual (.ofInt i) ∧
    (∀ room, ∃ v, Json.decode (Value.decode room) (toString i) = .ok v ∧ v.equal (.ofInt i)) ∧
    ((Value.ofInt i).equal (.ofInt j) ↔ i = j) ∧
    ((Value.ofInt i).looselyEqual (.ofInt j) ↔ i = j) ∧
    (∀ (r : Row) (name : String),
      Row.key (r.insert name (.ofInt i)) = Row.key (r.insert name (.ofInt j)) ↔ i = j) ∧
    (Value.ofInt i).looselyCompare? (.ofInt j) = some (compare i j) := by
  have hinteger := Number.integer?_ofInt hi
  have hjson := Number.jsonText?_of_integer? hinteger
  refine ⟨?_, ?_, ?_, Value.looselyEqual_toString hi, fun room => ?_, Value.equal_ofInt_iff hi hj,
    Value.looselyEqual_ofInt_iff hi hj, Row.key_insert_ofInt_iff hi hj,
    Value.looselyCompare?_ofInt hi hj⟩
  · rw [Value.ofInt, Value.plainText, Number.plainText_of_integer? hinteger]
  · rw [Value.ofInt, Value.toJson, Json.compact_number, hjson, Option.getD_some]
  · rw [Value.ofInt, Value.toJson, Json.pretty_number, hjson, Option.getD_some]
  · exact ⟨_, Value.decode_toString room hi, (Value.equal_ofInt_iff hi hi).mpr rfl⟩

theorem integers_pass_through_extremes :
    let i : ℤ := -8999999999999999
    let j : ℤ := 8999999999999999
    i.natAbs < Number.integerBound ∧ j.natAbs < Number.integerBound ∧
      (Value.ofInt i).plainText = "-8999999999999999" ∧
      (Value.ofInt i).toJson.compact = "-8999999999999999" ∧
      (∃ v, Json.decode (Value.decode Json.nestingBound) "-8999999999999999" = .ok v ∧
        v.equal (.ofInt i)) ∧
      ¬ (Value.ofInt i).looselyEqual (.ofInt j) ∧
      (Value.ofInt i).looselyCompare? (.ofInt j) = some .lt := by
  intro i j
  have hi : i.natAbs < Number.integerBound := by decide +kernel
  have hj : j.natAbs < Number.integerBound := by decide +kernel
  have htext : toString i = "-8999999999999999" := by decide +kernel
  have hne : i ≠ j := by decide
  obtain ⟨hplain, hcompact, -, -, hdecode, -, hloose, -, hcompare⟩ := integers_pass_through hi hj
  rw [htext] at hplain hcompact hdecode
  exact ⟨hi, hj, hplain, hcompact, hdecode _, fun h => hne (hloose.mp h), hcompare⟩

end RelTrace
