import Mathlib.Data.List.Nodup
import Mathlib.Data.List.Perm.Subperm
import RelTrace.Keyed

/-!
# Names and entries

Named entries are known by their names in order and by the entry under each name. Writing and
merging are described by what they do to these two.

## Main definitions

* `Keyed.IsMerge`: what the entries of both sides look like when the right side wins.
-/

namespace RelTrace

theorem names_putEntry {α : Type} (name : String) (a : α) (entries : List (String × α)) :
    (putEntry name a entries).map Prod.fst =
      if name ∈ entries.map Prod.fst then entries.map Prod.fst
      else entries.map Prod.fst ++ [name] := by
  induction entries with
  | nil => rfl
  | cons e rest ih => grind [putEntry]

theorem mem_putEntry {α : Type} {name : String} {a : α} {entries : List (String × α)}
    {e : String × α} (h : e ∈ putEntry name a entries) : e = (name, a) ∨ e ∈ entries := by
  induction entries with
  | nil => simpa [putEntry] using h
  | cons f rest ih => grind [putEntry]

namespace Keyed

variable {α : Type} {k l : Keyed α} {name : String} {a : α}

theorem find?_eq_some_iff : k.find? name = some a ↔ (name, a) ∈ k.entries := by
  rw [find?, Option.map_eq_some_iff]
  constructor
  · rintro ⟨e, he, rfl⟩
    obtain rfl : e.1 = name := by simpa using List.find?_some he
    exact List.mem_of_find?_eq_some he
  · intro hmem
    have hfound : (k.entries.find? fun e => e.1 == name).isSome :=
      List.find?_isSome.mpr ⟨_, hmem, beq_self_eq_true name⟩
    obtain ⟨e, he⟩ := Option.isSome_iff_exists.mp hfound
    have hname : e.1 = name := by simpa using List.find?_some he
    -- A name has one entry only, so the one that is found is this one.
    have heq := List.inj_on_of_nodup_map k.nodup (List.mem_of_find?_eq_some he) hmem hname
    exact ⟨e, he, congrArg Prod.snd heq⟩

theorem find?_eq_none_iff : k.find? name = none ↔ name ∉ k.names := by
  rw [find?, Option.map_eq_none_iff, List.find?_eq_none, names, List.mem_map]
  grind

theorem mem_names_iff : name ∈ k.names ↔ ∃ a, k.find? name = some a := by
  rw [← not_iff_not, ← find?_eq_none_iff, Option.eq_none_iff_forall_ne_some, not_exists]

/-- The entries are those found under the names. -/
theorem entries_eq_filterMap (k : Keyed α) :
    k.entries = k.names.filterMap fun name => (k.find? name).map fun a => (name, a) := by
  have hfound : ∀ e ∈ k.entries,
      ((fun name => (k.find? name).map fun a => (name, a)) ∘ Prod.fst) e = some e := fun e he => by
    rw [Function.comp_apply, find?_eq_some_iff.mpr he, Option.map_some]
  rw [names, List.filterMap_map, List.filterMap_congr hfound, List.filterMap_some]

theorem eq_of_find?_eq (hnames : k.names = l.names) (hfind : ∀ name, k.find? name = l.find? name) :
    k = l := by
  have hentries : k.entries = l.entries := by
    rw [entries_eq_filterMap k, entries_eq_filterMap l, hnames]
    simp only [hfind]
  cases k
  cases l
  congr

theorem names_insert (k : Keyed α) (name : String) (a : α) :
    (k.insert name a).names = if name ∈ k.names then k.names else k.names ++ [name] :=
  names_putEntry name a k.entries

/-- Writing what is there already changes nothing. -/
theorem insert_eq_self (h : k.find? name = some a) : k.insert name a = k := by
  apply eq_of_find?_eq
  · exact (names_insert k name a).trans (if_pos (mem_names_iff.mpr ⟨a, h⟩))
  · grind [find?_insert]

theorem insertAll_cons (k : Keyed α) (e : String × α) (rest : List (String × α)) :
    k.insertAll (e :: rest) = (k.insert e.1 e.2).insertAll rest := rfl

section InsertAll

variable {entries : List (String × α)}

theorem names_insertAll (h : (entries.map Prod.fst).Nodup) (k : Keyed α) :
    (k.insertAll entries).names =
      k.names ++ (entries.map Prod.fst).filter fun name => name ∉ k.names := by
  induction entries generalizing k with
  | nil => simp [insertAll]
  | cons e rest ih =>
    obtain ⟨hfresh, hrest⟩ := List.nodup_cons.mp h
    rw [insertAll_cons, ih hrest, names_insert]
    by_cases hmem : e.1 ∈ k.names
    · simp [hmem]
    · -- The name does not come again, so the rest is sifted as before.
      have hsift : (rest.map Prod.fst).filter (fun name => name ∉ k.names ++ [e.1]) =
          (rest.map Prod.fst).filter fun name => name ∉ k.names := by
        refine List.filter_congr fun name hname => ?_
        have hne : name ≠ e.1 := fun heq => hfresh (heq ▸ hname)
        simp [hne]
      rw [if_neg hmem, hsift, List.map_cons, List.filter_cons_of_pos (by simpa using hmem),
        List.append_assoc, List.singleton_append]

/-- The entry that was written last under a name is the one that is found. -/
theorem find?_insertAll_eq_or (k : Keyed α) (entries : List (String × α)) (name : String) :
    (k.insertAll entries).find? name =
      ((entries.reverse.find? fun e => e.1 == name).map Prod.snd).or (k.find? name) := by
  induction entries generalizing k with
  | nil => rfl
  | cons e rest ih =>
    rw [insertAll_cons, ih, find?_insert, List.reverse_cons, List.find?_append, Option.map_or,
      Option.or_assoc]
    congr 1
    by_cases hname : e.1 = name
    · simp [hname]
    · simp [hname, Ne.symm hname]

theorem find?_insertAll (h : (entries.map Prod.fst).Nodup) (k : Keyed α) (name : String) :
    (k.insertAll entries).find? name =
      ((entries.find? fun e => e.1 == name).map Prod.snd).or (k.find? name) := by
  rw [find?_insertAll_eq_or]
  congr 1
  -- A name has one entry only, so it is found from either end.
  let forward : Keyed α := ⟨entries, h⟩
  let backward : Keyed α := ⟨entries.reverse, by simpa using h⟩
  refine Option.ext fun a => ?_
  have hsame : backward.find? name = some a ↔ forward.find? name = some a := by
    rw [find?_eq_some_iff, find?_eq_some_iff, List.mem_reverse]
  exact hsame

theorem mem_entries_insertAll {k : Keyed α} {e : String × α}
    (h : e ∈ (k.insertAll entries).entries) : e ∈ k.entries ∨ e ∈ entries := by
  induction entries generalizing k with
  | nil => exact .inl h
  | cons f rest ih =>
    rw [insertAll_cons] at h
    rcases ih h with hmem | hmem
    · rcases mem_putEntry hmem with rfl | hmem
      · exact .inr List.mem_cons_self
      · exact .inl hmem
    · exact .inr (List.mem_cons_of_mem f hmem)

end InsertAll

theorem mem_of_mem_entries_ofList {entries : List (String × α)} {e : String × α}
    (h : e ∈ (ofList entries).entries) : e ∈ entries :=
  (mem_entries_insertAll h).resolve_left List.not_mem_nil

/-- Entries whose names differ are kept as they are. -/
theorem ofList_entries (k : Keyed α) : ofList k.entries = k := by
  refine eq_of_find?_eq ?_ fun name => ?_
  · rw [ofList, names_insertAll k.nodup]
    simp [empty, names]
  · rw [ofList, find?_insertAll k.nodup]
    exact Option.or_none

theorem equal_iff_forall_find? {same : α → α → Bool} :
    k.equal same l ↔ k.size = l.size ∧
      ∀ name a, k.find? name = some a → ∃ b, l.find? name = some b ∧ same a b := by
  rw [equal, Bool.and_eq_true, beq_iff_eq, List.all_eq_true]
  refine and_congr_right fun _ => ⟨fun h name a ha => ?_, fun h ⟨name, a⟩ he => ?_⟩
  · have hentry := h _ (find?_eq_some_iff.mp ha)
    dsimp only at hentry
    split at hentry
    · next b hb => exact ⟨b, hb, hentry⟩
    · cases hentry
  · obtain ⟨b, hb, hsame⟩ := h name a (find?_eq_some_iff.mpr he)
    simpa only [hb] using hsame

/-- Entries are equal regardless of their order if the same names have the same entries. -/
theorem equal_iff {same : α → α → Bool} :
    k.equal same l ↔ (∀ name, name ∈ k.names ↔ name ∈ l.names) ∧
      ∀ name a b, k.find? name = some a → l.find? name = some b → same a b := by
  have hsize : k.size = k.names.length ∧ l.size = l.names.length := by simp [size, names]
  rw [equal_iff_forall_find?, hsize.1, hsize.2]
  constructor
  · rintro ⟨hlength, hfound⟩
    have hsubset : k.names ⊆ l.names := fun name hname => by
      obtain ⟨a, ha⟩ := mem_names_iff.mp hname
      obtain ⟨b, hb, -⟩ := hfound name a ha
      exact mem_names_iff.mpr ⟨b, hb⟩
    -- As many names as on the right side, all of them there, are all that are there.
    have hperm :=
      (List.subperm_of_subset k.nodup hsubset).perm_of_length_le (Nat.le_of_eq hlength.symm)
    refine ⟨fun name => hperm.mem_iff, fun name a b ha hb => ?_⟩
    obtain ⟨b', hb', hsame⟩ := hfound name a ha
    rwa [Option.some.inj (hb.symm.trans hb')]
  · rintro ⟨hnames, hsame⟩
    have hperm := (List.perm_ext_iff_of_nodup k.nodup l.nodup).mpr hnames
    refine ⟨hperm.length_eq, fun name a ha => ?_⟩
    obtain ⟨b, hb⟩ := mem_names_iff.mp ((hnames name).mp (mem_names_iff.mpr ⟨a, ha⟩))
    exact ⟨b, hb, hsame name a b ha hb⟩

/-- The names of the left side come first, then the new ones of the right side; the entry of the
right side counts under every name that it has. -/
structure IsMerge (m k l : Keyed α) : Prop where
  names_eq : m.names = k.names ++ l.names.filter fun name => name ∉ k.names
  find?_eq : ∀ name, m.find? name = (l.find? name).or (k.find? name)

theorem isMerge_merge (k l : Keyed α) : IsMerge (k.merge l) k l :=
  ⟨names_insertAll l.nodup k, find?_insertAll l.nodup k⟩

@[simp] theorem names_merge (k l : Keyed α) :
    (k.merge l).names = k.names ++ l.names.filter fun name => name ∉ k.names :=
  (isMerge_merge k l).names_eq

@[simp] theorem find?_merge (k l : Keyed α) (name : String) :
    (k.merge l).find? name = (l.find? name).or (k.find? name) :=
  (isMerge_merge k l).find?_eq name

theorem isMerge_iff {m : Keyed α} : IsMerge m k l ↔ m = k.merge l := by
  refine ⟨fun h => eq_of_find?_eq ?_ fun name => ?_, fun h => h ▸ isMerge_merge k l⟩
  · rw [h.names_eq, names_merge]
  · rw [h.find?_eq, find?_merge]

theorem merge_assoc (k l m : Keyed α) : (k.merge l).merge m = k.merge (l.merge m) := by
  refine eq_of_find?_eq ?_ fun name => ?_
  · -- What is new to both sides is new to the left one among what is new to the right one.
    simp only [names_merge, List.filter_append, List.filter_filter, List.append_assoc]
    congr 2
    refine List.filter_congr fun name _ => ?_
    grind
  · simp only [find?_merge, Option.or_assoc]

end Keyed

end RelTrace
