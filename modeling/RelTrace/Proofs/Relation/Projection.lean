import Mathlib.Data.List.Forall2
import RelTrace.Proofs.Keyed
import RelTrace.Proofs.Lists
import RelTrace.Relation.Algebra

/-!
# Projections

A projected row has those of the listed attributes that the row has, in the order in which the list
names them first, and each with its value. So projections and selections of one relation cascade: a
second list chooses among the names of the first, a repeated name has no effect, and a condition may
be tested before or after its attribute has been chosen.

## Main definitions

* `Condition.LooksWithin`: the condition looks at no attribute besides the listed ones.
-/

namespace RelTrace

namespace Row

variable {r s : Row} {attributes : List String} {name : String}

/-- One more name brings its value, unless the row lacks it. -/
theorem project_concat (r : Row) (attributes : List String) (name : String) :
    r.project (attributes ++ [name]) =
      match r.find? name with
      | some v => (r.project attributes).insert name v
      | none => r.project attributes := by
  cases h : r.find? name <;>
    simp [project, Keyed.ofList, Keyed.insertAll, List.filterMap_append, h]

@[simp] theorem find?_project (r : Row) (attributes : List String) (name : String) :
    (r.project attributes).find? name = if name ∈ attributes then r.find? name else none := by
  induction attributes using List.reverseRecOn with
  | nil => rfl
  | append_singleton attributes last ih => grind [project_concat, Keyed.find?_insert]

@[simp] theorem mem_names_project :
    name ∈ (r.project attributes).names ↔ name ∈ attributes ∧ name ∈ r.names := by
  simp only [Keyed.mem_names_iff, find?_project]
  grind

/-- The names come in the order of the list, each where it is listed first. -/
theorem names_project (r : Row) (attributes : List String) :
    (r.project attributes).names = (attributes.filter (· ∈ r.names)).eraseDups := by
  induction attributes using List.reverseRecOn with
  | nil => rfl
  | append_singleton attributes last ih =>
    rw [project_concat, List.filter_append]
    cases hlast : r.find? last with
    | none => grind [Keyed.find?_eq_none_iff]
    | some v =>
      have hname : last ∈ r.names := Keyed.mem_names_iff.mpr ⟨v, hlast⟩
      have hrepeated :
          last ∈ attributes.filter (· ∈ r.names) ↔ last ∈ (r.project attributes).names := by simp
      rw [List.filter_cons_of_pos (by simpa using hname), List.filter_nil, eraseDups_concat, ← ih]
      simp only [Keyed.names_insert, hrepeated]

/-- A projection reads nothing but the listed attributes. -/
theorem project_congr (h : ∀ name ∈ attributes, r.find? name = s.find? name) :
    r.project attributes = s.project attributes :=
  congrArg Keyed.ofList (List.filterMap_congr fun name hname => by rw [h name hname])

/-- A second list chooses among the names of the first. -/
theorem project_project (r : Row) (attributes chosen : List String) :
    (r.project attributes).project chosen = r.project (chosen.filter (· ∈ attributes)) := by
  refine congrArg Keyed.ofList ?_
  rw [List.filterMap_filter]
  refine List.filterMap_congr fun name _ => ?_
  by_cases h : name ∈ attributes <;> simp [h]

/-- A name that is listed before has no effect. -/
theorem project_repeated (r : Row) {earlier : List String} (h : name ∈ earlier)
    (later : List String) : r.project (earlier ++ name :: later) = r.project (earlier ++ later) := by
  induction later using List.reverseRecOn with
  | nil =>
    rw [project_concat, List.append_nil]
    cases hfind : r.find? name with
    | none => rfl
    | some v => exact Keyed.insert_eq_self (by rw [find?_project, if_pos h, hfind])
  | append_singleton later last ih =>
    rw [← List.cons_append, ← List.append_assoc, ← List.append_assoc, project_concat,
      project_concat, ih]

end Row

namespace Condition

/-- The condition looks at no attribute besides the listed ones. -/
def LooksWithin (attributes : List String) : Condition → Prop
  | compare c => c.subject ∈ attributes
  | always => True

instance (attributes : List String) : DecidablePred (LooksWithin attributes)
  | compare c => inferInstanceAs (Decidable (c.subject ∈ attributes))
  | always => .isTrue trivial

/-- What the condition does not look at may be missing. -/
theorem holds_project {c : Condition} {attributes : List String} (h : c.LooksWithin attributes)
    (r : Row) : c.holds (r.project attributes) = c.holds r := by
  cases c with
  | always => rfl
  | compare c =>
    have hfind : (r.project attributes).find? c.subject = r.find? c.subject :=
      (Row.find?_project r attributes c.subject).trans (if_pos h)
    simp only [holds, Comparison.holds, hfind]

end Condition

namespace Relation

variable {r : Relation} {name : String}

theorem mem_attributes : name ∈ r.attributes ↔ ∃ row ∈ r, name ∈ row.names := by
  simp [attributes]

theorem nodup_attributes (r : Relation) : r.attributes.Nodup := nodup_eraseDups _

theorem select_select_comm (r : Relation) (c d : Condition) :
    (r.select c).select d = (r.select d).select c := List.filter_comm _ _ _

theorem select_select_self (r : Relation) (c : Condition) : (r.select c).select c = r.select c := by
  simp only [select, List.filter_filter, Bool.and_self]

/-- A condition may be tested before or after a projection that keeps its attribute. -/
theorem select_project {c : Condition} {attributes : List String} (h : c.LooksWithin attributes)
    (r : Relation) : (r.project attributes).select c = (r.select c).project attributes := by
  rw [select, project, List.filter_map]
  exact congrArg _ (List.filter_congr fun row _ => Condition.holds_project h row)

/-- A projection to all attributes changes nothing but the order inside the rows. -/
theorem project_attributes {row : Row} (h : row ∈ r) :
    (row.project r.attributes).names = r.attributes.filter (· ∈ row.names) ∧
      ∀ name, (row.project r.attributes).find? name = row.find? name := by
  constructor
  · rw [Row.names_project, eraseDups_of_nodup ((nodup_attributes r).filter _)]
  · intro name
    by_cases hname : name ∈ row.names
    · rw [Row.find?_project, if_pos (mem_attributes.mpr ⟨row, h, hname⟩)]
    · rw [Keyed.find?_eq_none_iff.mpr hname, Keyed.find?_eq_none_iff]
      simp [hname]

/-- Selections of one relation commute and may be repeated. A selection and a projection commute if
the projection keeps the attribute of the condition. Of two projections only the names of both
count, and of a list only the first mention of a name. A projection to all attributes that occur
arranges each row in their order and changes nothing else. -/
theorem selections_and_projections_cascade (r : Relation) (c d : Condition)
    (attributes chosen : List String) :
    (r.select c).select d = (r.select d).select c ∧
      (r.select c).select c = r.select c ∧
      (c.LooksWithin attributes →
        (r.project attributes).select c = (r.select c).project attributes) ∧
      (r.project attributes).project chosen = r.project (chosen.filter (· ∈ attributes)) ∧
      (∀ name later, name ∈ attributes →
        r.project (attributes ++ name :: later) = r.project (attributes ++ later)) ∧
      List.Forall₂ (fun projected row : Row =>
          projected.names = r.attributes.filter (· ∈ row.names) ∧
            ∀ name, projected.find? name = row.find? name)
        (r.project r.attributes) r := by
  refine ⟨select_select_comm r c d, select_select_self r c, fun h => select_project h r, ?_, ?_, ?_⟩
  · simp only [project, List.map_map]
    exact List.map_congr_left fun row _ => row.project_project attributes chosen
  · intro name later h
    exact List.map_congr_left fun row _ => row.project_repeated h later
  · exact List.forall₂_map_left_iff.mpr (List.forall₂_same.mpr fun row => project_attributes)

theorem selections_and_projections_cascade_lacking :
    let zero : Value := .number .zero
    let c : Condition := .compare ⟨"b", .different, .text "u"⟩
    let r : Relation :=
      [.ofList [("a", zero), ("b", .text "u")], .ofList [("b", zero), ("a", .bool true)],
        .ofList [("a", .text "")]]
    c.LooksWithin ["b", "c"] ∧ "b" ∈ ["b", "c"] ∧ (r.select c).length = 2 ∧
      (r.project ["b", "c"]).select c = (r.select c).project ["b", "c"] ∧
      r.project ["b", "c", "b", "a"] = r.project ["b", "c", "a"] := by
  intro zero c r
  have hwithin : c.LooksWithin ["b", "c"] := by decide
  have hmem : "b" ∈ ["b", "c"] := by decide
  obtain ⟨-, -, hselect, -, hrepeated, -⟩ :=
    selections_and_projections_cascade r c c ["b", "c"] []
  exact ⟨hwithin, hmem, by decide +kernel, hselect hwithin, hrepeated "b" ["a"] hmem⟩

end Relation

end RelTrace
