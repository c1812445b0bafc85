import Mathlib.Data.List.Forall2
import RelTrace.Database.Storage
import RelTrace.Proofs.Json.Numbers

/-!
# Databases equal in order

Equality of databases does not look at the order of tables and attributes, but their texts show it.
Databases that are equal with the order included have the same text.

## Main definitions

* `Json.SameText`: the values are written in the same way.
* `Keyed.Matches`, `Row.Matches`, `Database.Matches`: equality that looks at the order.
-/

namespace RelTrace

namespace Json

/-- The values have the same text in every layout. -/
def SameText (i j : Json) : Prop := ∀ l depth, write l depth i = write l depth j

theorem SameText.refl (j : Json) : SameText j j := fun _ _ => rfl

theorem sameText_number {m n : Number} (h : m.equal n) : SameText (number m) (number n) := by
  intro l depth
  rw [write, write, numberText, numberText, Number.jsonText?_eq_of_equal h]

theorem sameText_list {is js : List Json} (h : List.Forall₂ SameText is js) :
    SameText (list is) (list js) := by
  intro l depth
  have hitems {is js : List Json} (h : List.Forall₂ SameText is js) :
      writeItems l depth is = writeItems l depth js := by
    induction h with
    | nil => rfl
    | cons hitem _ ih => rw [writeItems, writeItems, hitem, ih]
  cases h with
  | nil => rfl
  | cons hitem hrest => rw [write, write, hitem, hitems hrest]

theorem sameText_object {is js : List (String × Json)}
    (h : List.Forall₂ (fun e f => e.1 = f.1 ∧ SameText e.2 f.2) is js) :
    SameText (object is) (object js) := by
  intro l depth
  have hentries {is js : List (String × Json)}
      (h : List.Forall₂ (fun e f => e.1 = f.1 ∧ SameText e.2 f.2) is js) :
      writeEntries l depth is = writeEntries l depth js := by
    induction h with
    | nil => rfl
    | cons hentry _ ih => rw [writeEntries, writeEntries, hentry.1, hentry.2, ih]
  cases h with
  | nil => rfl
  | cons hentry hrest => rw [write, write, hentry.1, hentry.2, hentries hrest]

end Json

/-- The same names in the same order, with related entries. -/
def Keyed.Matches {α β : Type} (R : α → β → Prop) (k : Keyed α) (l : Keyed β) : Prop :=
  List.Forall₂ (fun e f => e.1 = f.1 ∧ R e.2 f.2) k.entries l.entries

/-- Equal values of the same attributes in the same order. -/
def Row.Matches : Row → Row → Prop := Keyed.Matches fun v w => v.equal w

/-- Equality of databases with the order of tables, rows and attributes. -/
structure Database.Matches (d e : Database) : Prop where
  name_eq : d.name = e.name
  description?_eq : d.description? = e.description?
  tables : Keyed.Matches (List.Forall₂ Row.Matches) d.tables e.tables
  examples_eq : d.examples = e.examples
  diagram?_eq : d.diagram? = e.diagram?

theorem Json.sameText_entries {α : Type} {R : α → α → Prop} {k l : Keyed α} (h : k.Matches R l)
    {write : α → Json} (hwrite : ∀ a b, R a b → SameText (write a) (write b)) :
    SameText (object (k.entries.map fun (name, a) => (name, write a)))
      (object (l.entries.map fun (name, a) => (name, write a))) := by
  refine sameText_object ?_
  rw [List.forall₂_map_left_iff, List.forall₂_map_right_iff]
  exact h.imp fun _ _ hentry => ⟨hentry.1, hwrite _ _ hentry.2⟩

theorem Value.sameText_toJson {v w : Value} (h : v.equal w) : v.toJson.SameText w.toJson := by
  cases v <;> cases w
  case number.number => exact Json.sameText_number h
  case bool.bool => exact eq_of_beq h ▸ .refl _
  case text.text => exact eq_of_beq h ▸ .refl _
  all_goals cases h

theorem Row.sameText_toJson {r s : Row} (h : Row.Matches r s) :
    (Row.toJson r).SameText (Row.toJson s) :=
  Json.sameText_entries h fun _ _ => Value.sameText_toJson

theorem Relation.sameText_toJson {r s : Relation} (h : List.Forall₂ Row.Matches r s) :
    (Relation.toJson r).SameText (Relation.toJson s) := by
  refine Json.sameText_list ?_
  rw [List.forall₂_map_left_iff, List.forall₂_map_right_iff]
  exact h.imp fun _ _ => Row.sameText_toJson

namespace Database

variable {d e : Database}

theorem Matches.sameText_toJson (h : d.Matches e) : d.toJson.SameText e.toJson := by
  obtain ⟨name, description?, tables, examples, diagram?⟩ := d
  obtain ⟨rfl, rfl, htables, rfl, rfl⟩ := h
  have hrefl (es : List (String × Json)) :
      List.Forall₂ (fun e f => e.1 = f.1 ∧ Json.SameText e.2 f.2) es es :=
    List.forall₂_same.mpr fun e _ => ⟨rfl, .refl e.2⟩
  have htext := Json.sameText_entries htables fun _ _ => Relation.sameText_toJson
  refine Json.sameText_object ?_
  refine List.rel_append (List.rel_append (List.rel_append (hrefl _) (.cons ?_ .nil))
    (hrefl _)) (hrefl _)
  exact ⟨rfl, htext⟩

/-- Databases equal in order are exported as the same text. -/
theorem Matches.toText_eq (h : d.Matches e) : d.toText = e.toText :=
  congrArg String.ofList (h.sameText_toJson .pretty 0)

end Database

end RelTrace
