import RelTrace.Database.Storage
import RelTrace.Proofs.Json.Contents
import RelTrace.Proofs.Json.Decoding

/-!
# What is loaded

Each number in a loaded database is read from a token of the text, in whichever of its two forms the
database is written.

## Main definitions

* `Database.values`: what the tables hold.
-/

namespace RelTrace

open Json (exists_of_bind_eq_ok exists_of_map_eq_ok)

variable {n : Number} {e : Json.Draft}

theorem Value.contains_of_decode {room : Nat} (h : Value.decode room e = .ok (.number n)) :
    e.Contains n := by
  unfold Value.decode at h
  split at h
  · cases h
  · cases h
    exact .number
  · cases h
  · cases h

theorem Row.contains_of_decode {room : Nat} {r : Row} (h : Row.decode room e = .ok r)
    {name : String} (hn : (name, .number n) ∈ r.entries) : e.Contains n := by
  obtain ⟨entries, stop, rfl, entry, hentry, hvalue⟩ := Json.exists_of_mem_decodeKeyed h hn
  exact .entry hentry (Value.contains_of_decode hvalue)

theorem Relation.contains_of_decode {depth : Nat} {rows : Relation}
    (h : Relation.decode depth e = .ok rows) {r : Row} (hr : r ∈ rows) {name : String}
    (hn : (name, .number n) ∈ r.entries) : e.Contains n := by
  obtain ⟨items, stop, rfl, item, hitem, hrow⟩ := Json.exists_of_mem_decodeList h hr
  exact .item hitem (Row.contains_of_decode hrow hn)

namespace Database

/-- The values in the tables. -/
def values (d : Database) : List Value :=
  d.tables.entries.flatMap fun (_, rows) => rows.flatMap fun r => r.entries.map Prod.snd

theorem mem_values_iff {d : Database} {v : Value} :
    v ∈ d.values ↔ ∃ t ∈ d.tables.entries, ∃ r ∈ t.2, ∃ e ∈ r.entries, e.2 = v := by
  simp only [values, List.mem_flatMap, List.mem_map]

theorem contains_of_decodeTables {d : Database} (h : decodeTables e = .ok d.tables)
    (hn : .number n ∈ d.values) : e.Contains n := by
  obtain ⟨⟨table, rows⟩, ht, r, hr, ⟨name, v⟩, hv, rfl⟩ := mem_values_iff.mp hn
  obtain ⟨entries, stop, rfl, entry, hentry, hrows⟩ := Json.exists_of_mem_decodeKeyed h ht
  exact .entry hentry (Relation.contains_of_decode hrows hr hv)

section

variable {f g : Fields} {tables : Keyed Relation}

theorem exists_of_once_eq_ok {α : Type} {old a? : Option α} {decoder : Json.Decoder α}
    (h : once old decoder e = .ok a?) : ∃ a, decoder e = .ok a ∧ a? = some a := by
  unfold once at h
  split at h
  · cases h
  · obtain ⟨a, ha, rfl⟩ := exists_of_map_eq_ok h
    exact ⟨a, ha, rfl⟩

theorem decodeTables_of_decodeField {entry : Option String × Json.Draft}
    (h : decodeField f entry = .ok g) (hg : g.tables? = some tables) :
    f.tables? = some tables ∨ decodeTables entry.2 = .ok tables := by
  obtain ⟨key, -, h⟩ := exists_of_bind_eq_ok h
  split at h
  case h_3 =>
    obtain ⟨tables?, honce, h⟩ := exists_of_bind_eq_ok h
    cases h
    obtain ⟨found, hfound, rfl⟩ := exists_of_once_eq_ok honce
    obtain rfl := Option.some.inj hg
    exact .inr hfound
  all_goals
    obtain ⟨_, -, h⟩ := exists_of_bind_eq_ok h
    cases h
    exact .inl hg

theorem exists_decodeTables_of_foldlM {entries : List (Option String × Json.Draft)}
    (h : entries.foldlM decodeField f = .ok g) (hg : g.tables? = some tables) :
    f.tables? = some tables ∨ ∃ entry ∈ entries, decodeTables entry.2 = .ok tables := by
  induction entries generalizing f with
  | nil =>
    cases h
    exact .inl hg
  | cons entry entries ih =>
    rw [List.foldlM_cons] at h
    obtain ⟨f', hstep, h⟩ := exists_of_bind_eq_ok h
    rcases ih h with hf | ⟨other, hmem, hdecode⟩
    · exact (decodeTables_of_decodeField hstep hf).imp_right fun hdecode =>
        ⟨entry, List.mem_cons_self, hdecode⟩
    · exact .inr ⟨other, List.mem_cons_of_mem entry hmem, hdecode⟩

section

variable {α : Type} {stop : Option Json.Flaw} {decoder : Json.Decoder α}
  {items rest : List Json.Draft}

theorem subset_of_nextItem {a? : Option α} (h : nextItem stop decoder items = .ok (a?, rest)) :
    rest ⊆ items := by
  cases items with
  | nil =>
    obtain ⟨-, -, h⟩ := exists_of_bind_eq_ok h
    cases h
    exact List.Subset.refl []
  | cons item items =>
    obtain ⟨_, -, h⟩ := exists_of_bind_eq_ok h
    cases h
    exact List.subset_cons_self _ _

theorem exists_of_nextItem {a : α} (h : nextItem stop decoder items = .ok (some a, rest)) :
    ∃ item ∈ items, decoder item = .ok a := by
  cases items with
  | nil =>
    obtain ⟨-, -, h⟩ := exists_of_bind_eq_ok h
    cases h
  | cons item items =>
    obtain ⟨_, hitem, h⟩ := exists_of_bind_eq_ok h
    cases h
    exact ⟨item, List.mem_cons_self, hitem⟩

theorem nextItem_of_needItem {found : Option α × List Json.Draft}
    (h : needItem stop decoder items = .ok found) : nextItem stop decoder items = .ok found := by
  obtain ⟨next, hnext, h⟩ := exists_of_bind_eq_ok h
  split at h
  · cases h
  · cases h
    exact hnext

end

theorem tables?_of_database {d : Database} (h : f.database = .ok d) :
    f.tables? = some d.tables := by
  unfold Fields.database at h
  split at h
  · next htables =>
    cases h
    exact htables
  · cases h

theorem exists_decodeTables_of_decodeItems {items : List Json.Draft} {stop : Option Json.Flaw}
    {d : Database} (h : decodeItems items stop = .ok d) :
    ∃ item ∈ items, decodeTables item = .ok d.tables := by
  obtain ⟨⟨name?, afterName⟩, hname, h⟩ := exists_of_bind_eq_ok h
  obtain ⟨⟨description?, afterDescription⟩, hdescription, h⟩ := exists_of_bind_eq_ok h
  obtain ⟨⟨tables?, afterTables⟩, htables, h⟩ := exists_of_bind_eq_ok h
  obtain ⟨⟨examples?, afterExamples⟩, -, h⟩ := exists_of_bind_eq_ok h
  obtain ⟨⟨diagram?, afterDiagram⟩, -, h⟩ := exists_of_bind_eq_ok h
  simp only at h
  split at h
  · cases h
  · obtain ⟨-, -, h⟩ := exists_of_bind_eq_ok h
    obtain rfl : tables? = some d.tables := tables?_of_database h
    obtain ⟨item, hitem, hdecode⟩ := exists_of_nextItem (nextItem_of_needItem htables)
    exact ⟨item, subset_of_nextItem (nextItem_of_needItem hname)
      (subset_of_nextItem hdescription hitem), hdecode⟩

end

/-- The tables of a database are read from a part of what it is read from. -/
theorem exists_decodeTables {d : Database} (h : decode e = .ok d) :
    ∃ part, decodeTables part = .ok d.tables ∧ ∀ n, part.Contains n → e.Contains n := by
  cases e with
  | object entries stop =>
    obtain ⟨f, hf, h⟩ := exists_of_bind_eq_ok h
    obtain ⟨-, -, h⟩ := exists_of_bind_eq_ok h
    rcases exists_decodeTables_of_foldlM hf (tables?_of_database h) with
      hnone | ⟨entry, hmem, hdecode⟩
    · cases hnone
    · exact ⟨entry.2, hdecode, fun _ => .entry hmem⟩
  | list items stop =>
    obtain ⟨item, hmem, hdecode⟩ := exists_decodeTables_of_decodeItems h
    exact ⟨item, hdecode, fun _ => .item hmem⟩
  | _ => cases h

theorem decode_eq_ok_of_ofText {text : String} {d : Database} (h : ofText text = .ok d) :
    Json.decode decode text = .ok d ∧ Text.isBlankText d.name = false := by
  unfold ofText at h
  split at h
  · next hdecode =>
    split at h
    · cases h
    · next hname =>
      cases h
      exact ⟨hdecode, Bool.eq_false_iff.mpr hname⟩
  · cases h

/-- Each number in a loaded database is a token of the text. -/
theorem mem_tokens_of_ofText {text : String} {d : Database} (h : ofText text = .ok d)
    (hn : .number n ∈ d.values) : .number (some n) ∈ Json.tokens text.toList := by
  have hdecode := Json.decoder_draft_of_decode (decode_eq_ok_of_ofText h).1
  obtain ⟨part, htables, hpart⟩ := exists_decodeTables hdecode
  exact Json.mem_tokens_of_contains_draft (hpart n (contains_of_decodeTables htables hn))

end Database

end RelTrace
