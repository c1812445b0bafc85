import RelTrace.Proofs.Json.Writing
import RelTrace.Proofs.Keyed

/-!
# Decoders

A decoder that reads what is written for each value reads lists and objects of such values. In the
other direction, each value of a list or an object that has been decoded was decoded from a part of
it.
-/

namespace RelTrace.Json

variable {α β : Type}

theorem exists_of_bind_eq_ok {ε : Type} {x : Except ε α} {f : α → Except ε β} {b : β}
    (h : x >>= f = .ok b) : ∃ a, x = .ok a ∧ f a = .ok b := by
  cases x with
  | error e => cases h
  | ok a => exact ⟨a, rfl, h⟩

theorem exists_of_map_eq_ok {ε : Type} {x : Except ε α} {f : α → β} {b : β}
    (h : x.map f = .ok b) : ∃ a, x = .ok a ∧ f a = b := by
  cases x with
  | error e => cases h
  | ok a => exact ⟨a, rfl, Except.ok.inj h⟩

theorem decoder_draft_of_decode {decoder : Decoder α} {text : String} {a : α}
    (h : decode decoder text = .ok a) : decoder (draft text.toList).1 = .ok a := by
  unfold decode at h
  generalize draft text.toList = read at h ⊢
  obtain ⟨b, hb, h⟩ := exists_of_bind_eq_ok h
  split at h
  · cases h
  · cases h
    exact hb

theorem mapM_eq_ok {ε : Type} {f : α → Except ε β} {g : β → α} {bs : List β}
    (h : ∀ b ∈ bs, f (g b) = .ok b) : (bs.map g).mapM f = .ok bs := by
  induction bs with
  | nil => rfl
  | cons b bs ih =>
    obtain ⟨hb, hbs⟩ := List.forall_mem_cons.mp h
    rw [List.map_cons, List.mapM_cons, hb, ih hbs]
    rfl

theorem exists_of_mem_mapM {ε : Type} {f : α → Except ε β} {as : List α} {bs : List β}
    (h : as.mapM f = .ok bs) {b : β} (hb : b ∈ bs) : ∃ a ∈ as, f a = .ok b := by
  induction as generalizing bs with
  | nil =>
    obtain rfl : [] = bs := Except.ok.inj h
    cases hb
  | cons a as ih =>
    rw [List.mapM_cons] at h
    obtain ⟨c, hc, h⟩ := exists_of_bind_eq_ok h
    obtain ⟨cs, hcs, h⟩ := exists_of_bind_eq_ok h
    obtain rfl : c :: cs = bs := Except.ok.inj h
    rcases List.mem_cons.mp hb with rfl | hb
    · exact ⟨a, List.mem_cons_self, hc⟩
    · obtain ⟨d, hd, hdecode⟩ := ih hcs hb
      exact ⟨d, List.mem_cons_of_mem a hd, hdecode⟩

theorem itemDrafts_eq_map (items : List Json) : itemDrafts items = items.map toDraft := by
  induction items with
  | nil => rfl
  | cons item items ih => rw [itemDrafts, ih, List.map_cons]

theorem entryDrafts_eq_map (entries : List (String × Json)) :
    entryDrafts entries = entries.map fun e => (some e.1, e.2.toDraft) := by
  induction entries with
  | nil => rfl
  | cons e entries ih => rw [entryDrafts, ih, List.map_cons]

section

variable {decoder : Decoder α} {write : α → Json}

theorem decodeList_map {as : List α} (h : ∀ a ∈ as, decoder (write a).toDraft = .ok a) :
    decodeList decoder (list (as.map write)).toDraft = .ok as := by
  have hitems := mapM_eq_ok (g := fun a => (write a).toDraft) h
  rw [toDraft, itemDrafts_eq_map, List.map_map, decodeList]
  exact congrArg (fun x => x >>= fun as => .ok as) hitems

variable (h : ∀ a, decoder (write a).toDraft = .ok a)
include h

theorem decodeEntries_map (es : List (String × α)) :
    decodeEntries decoder (object (es.map fun (name, a) => (name, write a))).toDraft = .ok es := by
  have hentries := mapM_eq_ok (g := fun (e : String × α) => (some e.1, (write e.2).toDraft))
    (f := fun e => return (← decodeKey e.1, ← decoder e.2))
    fun e (_ : e ∈ es) => by simp only [decodeKey, h]; rfl
  rw [toDraft, entryDrafts_eq_map, List.map_map, decodeEntries]
  exact congrArg (fun x => x >>= fun es => .ok es) hentries

theorem decodeKeyed_entries (k : Keyed α) :
    decodeKeyed decoder (object (k.entries.map fun (name, a) => (name, write a))).toDraft =
      .ok k := by
  rw [decodeKeyed, decodeEntries_map h]
  exact congrArg Except.ok k.ofList_entries

end

section

variable {decoder : Decoder α} {d : Draft}

/-- What is in a list was decoded from one of its items. -/
theorem exists_of_mem_decodeList {as : List α} (h : decodeList decoder d = .ok as) {a : α}
    (ha : a ∈ as) : ∃ items stop, d = .list items stop ∧ ∃ e ∈ items, decoder e = .ok a := by
  cases d with
  | list items stop =>
    obtain ⟨bs, hbs, h⟩ := exists_of_bind_eq_ok h
    obtain ⟨-, -, h⟩ := exists_of_bind_eq_ok h
    obtain rfl : bs = as := Except.ok.inj h
    exact ⟨items, stop, rfl, exists_of_mem_mapM hbs ha⟩
  | _ => cases h

/-- An entry of an object was decoded from one of its entries. -/
theorem exists_of_mem_decodeKeyed {k : Keyed α} (h : decodeKeyed decoder d = .ok k) {name : String}
    {a : α} (ha : (name, a) ∈ k.entries) :
    ∃ entries stop, d = .object entries stop ∧ ∃ e ∈ entries, decoder e.2 = .ok a := by
  obtain ⟨es, hes, rfl⟩ := exists_of_map_eq_ok h
  cases d with
  | object entries stop =>
    obtain ⟨fs, hfs, hes⟩ := exists_of_bind_eq_ok hes
    obtain ⟨-, -, hes⟩ := exists_of_bind_eq_ok hes
    obtain rfl : fs = es := Except.ok.inj hes
    obtain ⟨e, he, hdecode⟩ := exists_of_mem_mapM hfs (Keyed.mem_of_mem_entries_ofList ha)
    obtain ⟨key, -, hdecode⟩ := exists_of_bind_eq_ok hdecode
    obtain ⟨b, hb, hdecode⟩ := exists_of_bind_eq_ok hdecode
    obtain rfl : b = a := congrArg Prod.snd (Except.ok.inj hdecode)
    exact ⟨entries, stop, rfl, e, he, hb⟩
  | _ => cases hes

end

end RelTrace.Json
