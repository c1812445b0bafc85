import RelTrace.Relation.Json
import RelTrace.Proofs.Json.Writing
import RelTrace.Proofs.Number.Equality

/-!
# Numbers that are read back

Equal numbers have the same JSON text. So a number whose text is read as an equal number can be
replaced by that number, which is written in the same way and read exactly.

## Main definitions

* `Number.ReadsBack`: a finite number whose JSON text is read as an equal number.
* `Number.readBack`: the number that the text of a number is read as.
-/

namespace RelTrace

namespace Json

variable {n : Number}

/-- A number alone has one text in either layout. -/
theorem compact_number (n : Number) : (number n).compact = n.jsonText?.getD "null" := by
  rw [compact, write, numberText, String.ofList_toList]

theorem pretty_number (n : Number) : (number n).pretty = n.jsonText?.getD "null" := by
  rw [pretty, write, numberText, String.ofList_toList]

/-- The text starts with a minus or a digit. -/
def StartsNumber (cs : List Char) : Prop := ∃ c ds, cs = c :: ds ∧ (c = '-' ∨ c.isDigit)

theorem StartsNumber.append {cs : List Char} (h : StartsNumber cs) (rest : List Char) :
    StartsNumber (cs ++ rest) := by
  obtain ⟨c, ds, rfl, hc⟩ := h
  exact ⟨c, ds ++ rest, rfl, hc⟩

theorem StartsNumber.withSign {cs : List Char} (h : StartsNumber cs) (negative : Bool) :
    StartsNumber (withSign negative cs) := by
  cases negative with
  | false => exact h
  | true => exact ⟨'-', cs, rfl, .inl rfl⟩

theorem startsNumber_toDigits (n : Nat) : StartsNumber (Nat.toDigits 10 n) := by
  have hall : ∀ c ∈ Nat.toDigits 10 n, c.isDigit := fun _ hc =>
    Nat.isDigit_of_mem_toDigits (by decide) (by decide) hc
  cases hdigits : Nat.toDigits 10 n with
  | nil => exact absurd hdigits Nat.toDigits_ne_nil
  | cons c cs => exact ⟨c, cs, rfl, .inr (hall c (by simp [hdigits]))⟩

theorem StartsNumber.take {cs : List Char} (h : StartsNumber cs) {k : Nat} (hk : k ≠ 0) :
    StartsNumber (cs.take k) := by
  obtain ⟨c, ds, rfl, hc⟩ := h
  cases k with
  | zero => exact absurd rfl hk
  | succ k => exact ⟨c, ds.take k, rfl, hc⟩

theorem startsNumber_plain (d : Decimal) : StartsNumber d.plain := by
  have hdigits : StartsNumber d.digits := startsNumber_toDigits d.coefficient
  simp only [Decimal.plain]
  split
  · exact hdigits.append _
  · split
    · exact (hdigits.take (by omega)).append _
    · exact ⟨'0', _, rfl, .inr rfl⟩

theorem startsNumber_scientific (d : Decimal) : StartsNumber d.scientific := by
  have hdigits : StartsNumber d.digits := startsNumber_toDigits d.coefficient
  rw [Decimal.scientific, List.append_assoc]
  exact (hdigits.take (by decide)).append _

theorem startsNumber_numberText (h : n.isFinite) : StartsNumber (numberText n) := by
  unfold numberText Number.jsonText?
  split
  · simp only [Option.getD_some, String.toList_ofList, integerText]
    exact (startsNumber_toDigits _).withSign _
  · cases n with
    | nan | infinite => cases h
    | finite negative size =>
      simp only [Option.getD_some, String.toList_ofList]
      refine StartsNumber.withSign ?_ negative
      split
      · exact startsNumber_scientific _
      · split
        · exact (startsNumber_plain _).append _
        · exact startsNumber_plain _

theorem Building.foldl_step_done (d : Draft) (trailing : Bool) (frames : List Frame)
    (ts : List Token) :
    ts.foldl step ⟨.done d trailing, frames⟩ = ⟨.done d trailing, frames⟩ := by
  induction ts with
  | nil => rfl
  | cons t ts ih => exact ih

/-- Whatever stands after a whole value only shows that something does. -/
theorem Building.finish_foldl_after (d : Draft) (ts : List Token) :
    (ts.foldl step ⟨.after d, []⟩).finish = (d, !ts.isEmpty) := by
  cases ts with
  | nil => rfl
  | cons t ts =>
    rw [List.foldl_cons]
    exact congrArg finish (foldl_step_done d true [] ts)

theorem isSpace_eq_false {c : Char} (h : c = '-' ∨ c.isDigit) : isSpace c = false := by
  rcases h with rfl | h
  · rfl
  · cases hspace : isSpace c with
    | false => rfl
    | true =>
      simp only [isSpace, Bool.or_eq_true, beq_iff_eq] at hspace
      rcases hspace with ((rfl | rfl) | rfl) | rfl <;> cases h

theorem tokenAt_eq_number_or_flaw {c : Char} (cs : List Char) (h : c = '-' ∨ c.isDigit) :
    (∃ n, (tokenAt c cs).1 = .number n) ∨ ∃ f, (tokenAt c cs).1 = .flaw false f := by
  have htoken (s : Scan (Option Number)) : (∃ n, (s.token false Token.number).1 = .number n) ∨
      ∃ f, (s.token false Token.number).1 = .flaw false f := by
    cases s with
    | found n rest => exact .inl ⟨n, rfl⟩
    | flawed f => exact .inr ⟨f, rfl⟩
  rcases h with rfl | h
  · exact htoken _
  · rw [tokenAt_of_isDigit h]
    exact htoken _

/-- A text that starts like a number and is read as a value is one number. -/
theorem tokens_of_decode {cs : List Char} (hcs : StartsNumber cs) {room : Nat} {v : Value}
    (h : decode (Value.decode room) (String.ofList cs) = .ok v) :
    ∃ m, v = .number m ∧ tokens cs = [.number (some m)] := by
  obtain ⟨c, ds, rfl, hc⟩ := hcs
  have htokens : tokens (c :: ds) = (tokenAt c ds).1 :: tokens (tokenAt c ds).2 :=
    tokens_of_not_isSpace (isSpace_eq_false hc)
  simp only [decode, String.toList_ofList, draft, htokens, List.foldl_cons] at h
  rcases tokenAt_eq_number_or_flaw ds hc with ⟨n, hn⟩ | ⟨f, hf⟩
  · have hstep : Building.start.step (.number n) = ⟨.after (.number n), []⟩ := rfl
    rw [hn] at h htokens
    rw [hstep, Building.finish_foldl_after] at h
    cases n with
    | none => cases h
    | some n =>
      cases hrest : tokens (tokenAt c ds).2 with
      | nil =>
        rw [hrest] at h htokens
        exact ⟨n, (Except.ok.inj h).symm, htokens⟩
      | cons t ts =>
        rw [hrest] at h
        cases h
  · have hstep : Building.start.step (.flaw false f) = ⟨.done (.broken f) false, []⟩ := rfl
    rw [hf, hstep, Building.foldl_step_done] at h
    cases h

end Json

namespace Number

/-- The sign of zero is not written. -/
theorem jsonText?_unsignedZero (n : Number) : n.unsignedZero.jsonText? = n.jsonText? := by
  cases n with
  | nan | infinite => rfl
  | finite negative size =>
    rw [unsignedZero]
    split
    · next hzero =>
      have hinteger : zero.integer? = some 0 := integer?_of_quanta_eq_zero rfl false
      unfold jsonText?
      rw [hinteger, integer?_of_quanta_eq_zero hzero]
    · rfl

theorem jsonText?_eq_of_equal {a b : Number} (h : a.equal b) : a.jsonText? = b.jsonText? := by
  rw [← jsonText?_unsignedZero a, unsignedZero_eq_of_equal h, jsonText?_unsignedZero]

/-- The JSON text of the number is read as an equal number. -/
def ReadsBack (n : Number) : Prop :=
  n.isFinite ∧ ∃ m, n.equal m ∧
    Json.decode (Value.decode Json.nestingBound) (Value.number n).toJson.pretty = .ok (.number m)

/-- The number that the JSON text of a number is read as, if that is an equal number. -/
def readBack (n : Number) : Number :=
  match Json.decode (Value.decode Json.nestingBound) (Value.number n).toJson.pretty with
  | .ok (.number m) => if n.equal m then m else n
  | _ => n

theorem numberText_readBack (n : Number) : Json.numberText n.readBack = Json.numberText n := by
  unfold readBack
  split
  · split
    · next hequal => rw [Json.numberText, Json.numberText, jsonText?_eq_of_equal hequal]
    · rfl
  · rfl

variable {n : Number}

theorem ReadsBack.equal_readBack (h : n.ReadsBack) : n.equal n.readBack := by
  obtain ⟨-, m, hequal, hdecode⟩ := h
  simpa only [readBack, hdecode, if_pos hequal] using hequal

/-- What is read back from a text is read from its own text. -/
theorem ReadsBack.exact_readBack (h : n.ReadsBack) : (Json.number n.readBack).Exact := by
  obtain ⟨hfinite, m, hequal, hdecode⟩ := h
  obtain ⟨k, hk, htokens⟩ := Json.tokens_of_decode (Json.startsNumber_numberText hfinite) hdecode
  obtain rfl := Value.number.inj hk
  have hread : n.readBack = m := by simp only [readBack, hdecode, if_pos hequal]
  rw [Json.Exact, numberText_readBack, hread, htokens]

end Number

end RelTrace
