import RelTrace.Proofs.Database.Loading
import RelTrace.Proofs.Database.Order

/-!
# Exporting and loading

A database that is exported and loaded again comes back with everything in its place, as far as its
numbers are read back from their texts.

## Main definitions

* `Database.readBack`: the database that comes back.
-/

namespace RelTrace

theorem Value.decode_toDraft (room : Nat) (v : Value) :
    Value.decode room v.toJson.toDraft = .ok v := by
  cases v <;> rfl

theorem Row.decode_toDraft (room : Nat) (r : Row) :
    Row.decode room (Row.toJson r).toDraft = .ok r :=
  Json.decodeKeyed_entries (Value.decode_toDraft room) r

theorem Relation.decode_toDraft (depth : Nat) (r : Relation) :
    Relation.decode depth (Relation.toJson r).toDraft = .ok r :=
  Json.decodeList_map fun row _ => Row.decode_toDraft _ row

namespace Database

variable {d : Database}

theorem decodeTables_toDraft (tables : Keyed Relation) :
    decodeTables (Json.object (tables.entries.map fun (name, rows) =>
      (name, Relation.toJson rows))).toDraft = .ok tables :=
  Json.decodeKeyed_entries (Relation.decode_toDraft 2) tables

theorem decodeExamples_toDraft (examples : List String) :
    decodeExamples (Json.list (examples.map Json.string)).toDraft = .ok examples :=
  Json.decodeList_map fun _ _ => rfl

/-- What is left out is filled in. -/
theorem decode_toDraft (d : Database) : decode d.toJson.toDraft = .ok d := by
  obtain ⟨name, description?, tables, examples, diagram?⟩ := d
  have htables := decodeTables_toDraft tables
  have hexamples := decodeExamples_toDraft examples
  rw [toJson, Json.toDraft, Json.entryDrafts_eq_map, decode]
  generalize Json.object (tables.entries.map _) = tablesJson at *
  generalize Json.list (examples.map Json.string) = examplesJson at *
  have hkey (key : String) : Json.decodeKey (some key) = .ok key := rfl
  have hname : Json.decodeString (Json.string name).toDraft = .ok name := rfl
  have htext (s : String) : decodeText? (Json.string s).toDraft = .ok (some s) := rfl
  have hstop : Json.checkStop none = .ok () := rfl
  -- One case for each choice of the keys that are written.
  cases description? <;> cases diagram? <;> by_cases hnil : examples = [] <;>
    simp [decodeField, once, hkey, hname, htext, hstop, htables, hexamples, hnil, Fields.none,
      Fields.database, Except.map, bind, Except.bind, pure, Except.pure]

theorem exact_toJson (h : ∀ v ∈ d.values, v.toJson.Exact) : d.toJson.Exact := by
  have htables : (Json.object (d.tables.entries.map fun (name, rows) =>
      (name, Relation.toJson rows))).Exact :=
    Json.exact_object_map.mpr fun t ht => Json.exact_list_map.mpr fun r hr =>
      Json.exact_object_map.mpr fun e he =>
        h e.2 (mem_values_iff.mpr ⟨t, ht, r, hr, e, he, rfl⟩)
  have hexamples : (Json.list (d.examples.map Json.string)).Exact :=
    Json.exact_list_map.mpr fun _ _ => trivial
  rw [toJson, Json.Exact, Json.entriesExact_iff]
  intro e he
  simp only [List.mem_append, List.mem_singleton, Option.mem_toList, Option.map_eq_some_iff] at he
  rcases he with (((rfl | ⟨_, -, rfl⟩) | rfl) | he) | ⟨_, -, rfl⟩
  · trivial
  · trivial
  · exact htables
  · split at he
    · cases he
    · rw [List.mem_singleton.mp he]
      exact hexamples
  · trivial

/-- A database whose numbers are read from their own texts comes back as it is. -/
theorem ofText_toText (hname : Text.isBlankText d.name = false)
    (h : ∀ v ∈ d.values, v.toJson.Exact) : ofText d.toText = .ok d := by
  have hdecode : Json.decode decode d.toText = .ok d := by
    rw [toText, Json.decode_pretty decode (exact_toJson h), decode_toDraft]
  simp [ofText, hdecode, hname]

end Database

/-- The values under the names, changed one by one. -/
def Keyed.map {α β : Type} (f : α → β) (k : Keyed α) : Keyed β :=
  ⟨k.entries.map fun (name, a) => (name, f a), by simpa [Function.comp_def] using k.nodup⟩

/-- The value that the text of a value is read as. -/
def Value.readBack : Value → Value
  | number n => number n.readBack
  | v => v

def Row.readBack (r : Row) : Row := Keyed.map Value.readBack r

namespace Database

variable {d : Database}

/-- The database with each number as it is read back. -/
def readBack (d : Database) : Database :=
  { d with tables := d.tables.map fun rows => rows.map Row.readBack }

theorem matches_readBack (h : ∀ n, .number n ∈ d.values → n.ReadsBack) : d.Matches d.readBack := by
  have hvalue : ∀ v ∈ d.values, v.equal v.readBack := by
    rintro (b | n | s) hv
    · exact beq_self_eq_true b
    · exact (h n hv).equal_readBack
    · exact beq_self_eq_true s
  refine ⟨rfl, rfl, ?_, rfl, rfl⟩
  simp only [Keyed.Matches, readBack, Keyed.map, List.forall₂_map_right_iff, List.forall₂_same]
  refine fun t ht => ⟨trivial, ?_⟩
  simp only [List.forall₂_map_right_iff, List.forall₂_same, Row.Matches, Keyed.Matches,
    Row.readBack, Keyed.map]
  exact fun r hr e he => ⟨trivial, hvalue e.2 (mem_values_iff.mpr ⟨t, ht, r, hr, e, he, rfl⟩)⟩

theorem exact_of_mem_values_readBack (h : ∀ n, .number n ∈ d.values → n.ReadsBack) :
    ∀ v ∈ d.readBack.values, v.toJson.Exact := by
  have hvalue : ∀ v ∈ d.values, v.readBack.toJson.Exact := by
    rintro (b | n | s) hv
    · trivial
    · exact (h n hv).exact_readBack
    · trivial
  have hvalues : d.readBack.values = d.values.map Value.readBack := by
    simp [values, readBack, Keyed.map, Row.readBack, List.map_flatMap, List.flatMap_map,
      Function.comp_def]
  rw [hvalues]
  exact List.forall_mem_map.mpr hvalue

/-- A database with a name that is not blank and with numbers that are read back comes back from its
text, equal in order and with the same text. Whatever database a text gives has a name that is not
blank and finite numbers. -/
theorem exported_comes_back :
    (∀ d : Database, Text.isBlankText d.name = false →
      (∀ n, .number n ∈ d.values → n.ReadsBack) →
      ∃ e, ofText d.toText = .ok e ∧ d.Matches e ∧ e.toText = d.toText) ∧
    ∀ text d, ofText text = .ok d →
      Text.isBlankText d.name = false ∧ ∀ n, .number n ∈ d.values → n.isFinite := by
  constructor
  · intro d hname hnumbers
    have hmatches := matches_readBack hnumbers
    have hback : ofText d.readBack.toText = .ok d.readBack :=
      ofText_toText hname (exact_of_mem_values_readBack hnumbers)
    rw [← hmatches.toText_eq] at hback
    exact ⟨d.readBack, hback, hmatches, hmatches.toText_eq.symm⟩
  · intro text d h
    exact ⟨(decode_eq_ok_of_ofText h).2, fun n hn =>
      Json.isFinite_of_mem_tokens (mem_tokens_of_ofText h hn)⟩

/-- Values of all kinds, among them a fraction and a negative zero. -/
def receipt : Database where
  name := "Receipt"
  description? := none
  tables := .ofList [("Items",
    [.ofList [("note", .text "a \"b\"\n"), ("price", .number (.ofRatio false 3 2))],
     .ofList [("price", .number (.finite true .zero)), ("paid", .bool true)]])]
  examples := ["Items"]
  diagram? := none

theorem receipt_comes_back :
    Text.isBlankText receipt.name = false ∧
      (∀ n, .number n ∈ receipt.values → n.ReadsBack) ∧
      ∃ e, ofText receipt.toText = .ok e ∧ receipt.Matches e ∧ e.toText = receipt.toText ∧
        Text.isBlankText e.name = false ∧ ∀ n, .number n ∈ e.values → n.isFinite := by
  have hname : Text.isBlankText receipt.name = false := by decide +kernel
  have hfraction : (Number.ofRatio false 3 2).ReadsBack :=
    ⟨by decide +kernel, .ofRatio false 3 2, by decide +kernel, by decide +kernel⟩
  have hzero : (Number.finite true .zero).ReadsBack :=
    ⟨rfl, .zero, by decide +kernel, by decide +kernel⟩
  have hnumbers : ∀ n, .number n ∈ receipt.values → n.ReadsBack := by
    have hvalues : receipt.values = [.text "a \"b\"\n", .number (.ofRatio false 3 2),
        .number (.finite true .zero), .bool true] := by decide +kernel
    intro n hn
    simp only [hvalues, List.mem_cons, List.not_mem_nil, Value.number.injEq, reduceCtorEq, or_false,
      false_or] at hn
    exact hn.elim (fun h => h ▸ hfraction) fun h => h ▸ hzero
  obtain ⟨e, hload, hmatches, htext⟩ := exported_comes_back.1 receipt hname hnumbers
  exact ⟨hname, hnumbers, e, hload, hmatches, htext, exported_comes_back.2 _ e hload⟩

end Database

end RelTrace
