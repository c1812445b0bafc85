import RelTrace.Proofs.Relation.Selection

/-!
# The identity of a row

The key of a row is a canonical form of what has been written under its names. Rows have one key
exactly if they have the same attributes with equal values, in whatever order and however often they
were written. Only values that are not numbers are set apart: they equal nothing, but a key keeps
them as they are.

## Main definitions

* `Value.Alike`: the values count as one.
* `Row.written?`: what was written last under a name.
* `Row.WrittenAlike`: related values were written last under the same names.
-/

namespace RelTrace

namespace Value

variable {v w : Value}

/-- The value is a number in kind only. -/
def isNan : Value → Bool
  | number (.nan _) => true
  | _ => false

/-- The values are equal, or they are one and the same that is not a number. -/
def Alike (v w : Value) : Prop := v.equal w ∨ v.isNan ∧ v = w

theorem equal_comm (v w : Value) : v.equal w = w.equal v := by
  cases v <;> cases w <;> simp [equal, Number.equal_comm, Bool.beq_comm]

@[simp] theorem equal_unsignedZero (v w : Value) : v.unsignedZero.equal w = v.equal w := by
  cases v <;> cases w <;> simp [equal, unsignedZero]

/-- Values coincide without the sign of zero if they count as one. -/
theorem unsignedZero_eq_iff : v.unsignedZero = w.unsignedZero ↔ v.Alike w := by
  cases v with
  | bool a => cases w <;> simp [unsignedZero, Alike, equal, isNan]
  | text s => cases w <;> simp [unsignedZero, Alike, equal, isNan]
  | number m =>
    cases w with
    | bool | text => simp [unsignedZero, Alike, equal]
    | number n =>
      rw [unsignedZero, unsignedZero, number.injEq, Number.unsignedZero_eq_iff, Alike, equal,
        number.injEq]
      refine or_congr_right ⟨?_, ?_⟩
      · rintro ⟨payload, rfl, rfl⟩
        exact ⟨rfl, rfl⟩
      · rintro ⟨hnan, rfl⟩
        cases m with
        | nan payload => exact ⟨payload, rfl, rfl⟩
        | infinite | finite => cases hnan

theorem alike_iff_equal (h : v.isNan = false) : v.Alike w ↔ v.equal w := by
  simp [Alike, h]

end Value

namespace Row

variable {r s : Row}

theorem same_iff_map_find? :
    r.Same s ↔ ∀ name,
      (r.find? name).map Value.unsignedZero = (s.find? name).map Value.unsignedZero := by
  refine ⟨fun h name => h.map_find?_eq name, fun h => same_iff_perm.mpr ?_⟩
  rw [List.perm_ext_iff_of_nodup (nodup_atoms r).of_map (nodup_atoms s).of_map]
  rintro ⟨name, v⟩
  rw [mem_atoms_iff, mem_atoms_iff, h]

theorem same_iff_alike :
    r.Same s ↔ (∀ name, name ∈ r.names ↔ name ∈ s.names) ∧
      ∀ name v w, r.find? name = some v → s.find? name = some w → v.Alike w := by
  simp only [same_iff_map_find?, ← Value.unsignedZero_eq_iff, Keyed.mem_names_iff, ← forall_and]
  refine forall_congr' fun name => ?_
  cases r.find? name <;> cases s.find? name <;> simp

/-- The value that was written last under a name. -/
def written? (entries : List (String × Value)) (name : String) : Option Value :=
  (entries.reverse.find? fun e => e.1 == name).map Prod.snd

/-- The same names have been written, and last with related values. -/
def WrittenAlike (related : Value → Value → Prop) (es fs : List (String × Value)) : Prop :=
  (∀ name, name ∈ es.map Prod.fst ↔ name ∈ fs.map Prod.fst) ∧
    ∀ name v w, written? es name = some v → written? fs name = some w → related v w

section Written

variable {es fs : List (String × Value)} {name : String}

theorem find?_ofList (es : List (String × Value)) (name : String) :
    (Keyed.ofList es).find? name = written? es name :=
  (Keyed.find?_insertAll_eq_or .empty es name).trans Option.or_none

theorem mem_names_ofList : name ∈ (Keyed.ofList es).names ↔ name ∈ es.map Prod.fst := by
  rw [Keyed.mem_names_iff, find?_ofList, ← Option.isSome_iff_exists, written?, Option.isSome_map,
    List.find?_isSome]
  simp

theorem writtenAlike_iff {related : Value → Value → Prop} :
    WrittenAlike related es fs ↔
      (∀ name, name ∈ (Keyed.ofList es).names ↔ name ∈ (Keyed.ofList fs).names) ∧
        ∀ name v w, (Keyed.ofList es).find? name = some v → (Keyed.ofList fs).find? name = some w →
          related v w := by
  simp only [WrittenAlike, mem_names_ofList, find?_ofList]

end Written

/-- Rows that have been written in any way share their key if the same names were written, and last
with values that count as one. Without values that are not numbers, these are the equal values, and
the rows that share a key are the equal rows. -/
theorem key_eq_iff_writtenAlike (es fs : List (String × Value)) :
    (key (.ofList es) = key (.ofList fs) ↔ WrittenAlike Value.Alike es fs) ∧
      ((∀ name v, written? es name = some v → v.isNan = false) →
        (key (.ofList es) = key (.ofList fs) ↔ WrittenAlike (fun v w => v.equal w) es fs) ∧
          (key (.ofList es) = key (.ofList fs) ↔ equal (.ofList es) (.ofList fs))) := by
  have hkey : key (.ofList es) = key (.ofList fs) ↔ WrittenAlike Value.Alike es fs := by
    rw [writtenAlike_iff]
    exact same_iff_alike
  refine ⟨hkey, fun hes => ?_⟩
  have halike : WrittenAlike Value.Alike es fs ↔ WrittenAlike (fun v w => v.equal w) es fs :=
    and_congr_right fun _ => forall_congr' fun name => forall_congr' fun v => forall_congr'
      fun w => forall_congr' fun hv => by rw [Value.alike_iff_equal (hes name v hv)]
  refine ⟨hkey.trans halike, hkey.trans (halike.trans ?_)⟩
  rw [writtenAlike_iff]
  exact Keyed.equal_iff.symm

theorem key_eq_iff_writtenAlike_overwritten :
    let es := [("x", .text "b"), ("y", .text "a"), ("x", .number (.finite true .zero))]
    let fs := [("y", .text "a"), ("x", .number .zero)]
    (∀ name v, written? es name = some v → v.isNan = false) ∧
      key (.ofList es) = key (.ofList fs) ∧ WrittenAlike (fun v w => v.equal w) es fs := by
  intro es fs
  have hnumbers : ∀ name v, written? es name = some v → v.isNan = false := by
    intro name v h
    obtain ⟨e, he, rfl⟩ := Option.map_eq_some_iff.mp h
    have hall : ∀ e ∈ es.reverse, e.2.isNan = false := by decide +kernel
    exact hall e (List.mem_of_find?_eq_some he)
  obtain ⟨hwritten, hequal⟩ := (key_eq_iff_writtenAlike es fs).2 hnumbers
  have hkey : key (.ofList es) = key (.ofList fs) := hequal.mpr (by decide +kernel)
  exact ⟨hnumbers, hkey, hwritten.mp hkey⟩

end Row

end RelTrace
