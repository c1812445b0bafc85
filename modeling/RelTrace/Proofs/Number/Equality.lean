import RelTrace.Number.Basic

/-!
# Equal numbers

Numbers have places on the line, and only the two zeros share one. So numbers are equal exactly if
they coincide when the sign of zero is forgotten, except for those that are not numbers: they are
equal to nothing and coincide only with themselves.
-/

namespace RelTrace

theorem natAbs_signed (negative : Bool) (n : Nat) : (signed negative n).natAbs = n := by
  cases negative <;> simp [signed]

theorem signed_natAbs (i : Int) : signed (i < 0) i.natAbs = i := by
  rw [signed]
  split <;> next h => simp at h; omega

/-- Only zero has two signs. -/
theorem signed_inj {negative other : Bool} {m n : Nat} (hm : m ≠ 0)
    (h : signed negative m = signed other n) : negative = other ∧ m = n := by
  have hsize := congrArg Int.natAbs h
  rw [natAbs_signed, natAbs_signed] at hsize
  refine ⟨?_, hsize⟩
  revert h
  cases negative <;> cases other <;> simp [signed] <;> omega

namespace Number

variable {m n : Number}

@[simp] theorem rank?_unsignedZero (n : Number) : n.unsignedZero.rank? = n.rank? := by
  cases n with
  | nan | infinite => rfl
  | finite negative size =>
    rw [unsignedZero]
    split
    · next hzero => cases negative <;> simp [rank?, zero, Magnitude.zero, signed, hzero]
    · rfl

@[simp] theorem equal_unsignedZero (m n : Number) : m.unsignedZero.equal n = m.equal n := by
  simp only [equal, rank?_unsignedZero]

theorem integer?_of_quanta_eq_zero {size : Magnitude} (h : size.quanta = 0) (negative : Bool) :
    (finite negative size).integer? = some 0 := by
  have hwhole : size.whole? = some 0 := by simp [Magnitude.whole?, h]
  have hbound : 0 < integerBound := by decide
  cases negative <;> simp [integer?, hwhole, hbound, signed]

/-- Numbers are equal if they have one place. -/
theorem equal_iff : m.equal n ↔ ∃ place, m.rank? = some place ∧ n.rank? = some place := by
  rw [equal]
  cases m.rank? <;> cases n.rank? <;> grind

theorem equal_comm (m n : Number) : m.equal n = n.equal m :=
  Bool.eq_iff_iff.mpr (by simp only [equal_iff, and_comm])

theorem rank?_eq_of_equal (h : m.equal n) : m.rank? = n.rank? := by
  obtain ⟨place, hm, hn⟩ := equal_iff.mp h
  rw [hm, hn]

/-- Equal numbers are one number but for the sign of zero. -/
theorem unsignedZero_eq_of_equal (h : m.equal n) : m.unsignedZero = n.unsignedZero := by
  have hrank := rank?_eq_of_equal h
  cases m with
  | nan => cases h
  | infinite negative =>
    cases n with
    | nan => cases hrank
    | infinite other => rw [(signed_inj (Nat.ne_of_gt limit_pos) (Option.some.inj hrank)).1]
    | finite other size =>
      have hsize := (signed_inj (Nat.ne_of_gt limit_pos) (Option.some.inj hrank)).2
      exact absurd hsize.symm (Nat.ne_of_lt size.lt_limit)
  | finite negative size =>
    cases n with
    | nan => cases hrank
    | infinite other =>
      have hsize := (signed_inj (Nat.ne_of_gt limit_pos) (Option.some.inj hrank.symm)).2
      exact absurd hsize.symm (Nat.ne_of_lt size.lt_limit)
    | finite other size' =>
      have hsigned := Option.some.inj hrank
      by_cases hzero : size.quanta = 0
      · have hzero' : size'.quanta = 0 := by
          rw [← natAbs_signed other size'.quanta, ← hsigned, natAbs_signed, hzero]
        rw [unsignedZero, unsignedZero, if_pos hzero, if_pos hzero']
      · obtain ⟨rfl, hsize⟩ := signed_inj hzero hsigned
        cases size
        cases size'
        cases hsize
        rfl

/-- Without the sign of zero, numbers coincide if they are equal. -/
theorem unsignedZero_eq_iff :
    m.unsignedZero = n.unsignedZero ↔
      m.equal n ∨ ∃ payload, m = nan payload ∧ n = nan payload := by
  constructor
  · intro h
    have hrank : m.rank? = n.rank? := by rw [← rank?_unsignedZero, h, rank?_unsignedZero]
    cases n with
    | nan payload =>
      cases m with
      | nan => exact .inr ⟨payload, h, rfl⟩
      | infinite | finite => cases hrank
    | infinite | finite => exact .inl (equal_iff.mpr ⟨_, hrank, rfl⟩)
  · rintro (h | ⟨payload, rfl, rfl⟩)
    · exact unsignedZero_eq_of_equal h
    · rfl

end Number

end RelTrace
