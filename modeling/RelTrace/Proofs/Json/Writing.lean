import RelTrace.Json.Decode
import RelTrace.Proofs.Json.Pieces

/-!
# Reading back what is written

A written text is put together to the tree that was written. The text of a value leads from any
place where a value may stand to the place after it, whatever is open around it, provided that each
number in it is read from its own text.

## Main definitions

* `Json.toDraft`: a value as the tree of its text.
* `Json.Exact`: each number is read from its text.
-/

namespace RelTrace

namespace Json

mutual

/-- A value as a tree without flaws. -/
def toDraft : Json → Draft
  | null => .null
  | bool b => .bool b
  | number n => .number (some n)
  | string s => .string (some s)
  | list items => .list (itemDrafts items) none
  | object entries => .object (entryDrafts entries) none

def itemDrafts : List Json → List Draft
  | [] => []
  | item :: items => item.toDraft :: itemDrafts items

def entryDrafts : List (String × Json) → List (Option String × Draft)
  | [] => []
  | (key, value) :: entries => (some key, value.toDraft) :: entryDrafts entries

end

mutual

/-- The text of each number is read as the number. -/
def Exact : Json → Prop
  | null | bool _ | string _ => True
  | number n => tokens (numberText n) = [.number (some n)]
  | list items => ItemsExact items
  | object entries => EntriesExact entries

def ItemsExact : List Json → Prop
  | [] => True
  | item :: items => item.Exact ∧ ItemsExact items

def EntriesExact : List (String × Json) → Prop
  | [] => True
  | (_, value) :: entries => value.Exact ∧ EntriesExact entries

end

theorem itemsExact_iff {items : List Json} : ItemsExact items ↔ ∀ j ∈ items, j.Exact := by
  induction items with
  | nil => simp [ItemsExact]
  | cons item items ih => simp [ItemsExact, ih]

theorem entriesExact_iff {entries : List (String × Json)} :
    EntriesExact entries ↔ ∀ e ∈ entries, e.2.Exact := by
  induction entries with
  | nil => simp [EntriesExact]
  | cons e entries ih => simp [EntriesExact, ih]

theorem exact_list_map {α : Type} {f : α → Json} {as : List α} :
    (list (as.map f)).Exact ↔ ∀ a ∈ as, (f a).Exact := by
  rw [Exact, itemsExact_iff, List.forall_mem_map]

theorem exact_object_map {α : Type} {f : α → Json} {es : List (String × α)} :
    (object (es.map fun (name, a) => (name, f a))).Exact ↔ ∀ e ∈ es, (f e.2).Exact := by
  rw [Exact, entriesExact_iff, List.forall_mem_map]

/-- Blanks stand around the marks and nothing else. -/
structure Layout.IsBlank (l : Layout) : Prop where
  lineBreak : ∀ depth, ∀ c ∈ l.lineBreak depth, isSpace c
  colon : ∃ spaces, l.colon = ':' :: spaces ∧ ∀ c ∈ spaces, isSpace c

theorem Layout.isBlank_pretty : Layout.pretty.IsBlank where
  lineBreak depth c hc := by
    rcases List.mem_cons.mp hc with rfl | hc
    · rfl
    · rw [List.eq_of_mem_replicate hc]
      rfl
  colon := ⟨[' '], rfl, by simp [isSpace]⟩

theorem endsNumber_append_cons {spaces rest : List Char} {c : Char}
    (hspaces : ∀ c ∈ spaces, isSpace c)
    (hc : c.isDigit = false ∧ c ≠ '.' ∧ c ≠ 'e' ∧ c ≠ 'E') : EndsNumber (spaces ++ c :: rest) := by
  cases spaces with
  | nil => simpa [EndsNumber] using hc
  | cons s spaces =>
    have hs := hspaces s (by simp)
    simp only [isSpace, Bool.or_eq_true, beq_iff_eq] at hs
    rcases hs with ((rfl | rfl) | rfl) | rfl <;> simp [EndsNumber]

namespace Building

variable {cs rest : List Char} {b : Building}

/-- Reads the tokens of a text. -/
def run (b : Building) (cs : List Char) : Building := (tokens cs).foldl step b

theorem run_append_of_isSpace (h : ∀ c ∈ cs, isSpace c) : b.run (cs ++ rest) = b.run rest := by
  rw [run, tokens_append_of_isSpace h, run]

theorem run_mark {c : Char} {t : Token} (hspace : isSpace c = false)
    (h : ∀ cs, tokenAt c cs = (t, cs)) : b.run (c :: cs) = (b.step t).run cs := by
  rw [run, tokens_mark hspace h, List.foldl_cons, run]

theorem run_stringText (s : String) :
    b.run (stringText s ++ rest) = (b.step (.string (some s))).run rest := by
  rw [run, tokens_stringText, List.foldl_cons, run]

theorem run_colon {l : Layout} (hl : l.IsBlank) :
    b.run (l.colon ++ rest) = (b.step .colon).run rest := by
  obtain ⟨spaces, hcolon, hspaces⟩ := hl.colon
  rw [hcolon, List.cons_append, run_mark rfl fun _ => rfl, run_append_of_isSpace hspaces]

end Building

/-- A value may stand here. -/
def Spot.TakesValue (s : Spot) : Prop := s = .value ∨ s = .firstItem

theorem Spot.TakesValue.step_eq {spot : Spot} (h : spot.TakesValue) (t : Token)
    (ht : t ≠ .closeList) (frames : List Frame) :
    Building.step ⟨spot, frames⟩ t = Building.stepValue frames t := by
  rcases h with rfl | rfl
  · rfl
  · cases t <;> first | rfl | exact absurd rfl ht

section

variable {l : Layout} (hl : l.IsBlank)
include hl

theorem endsNumber_writeItems (depth : Nat) (items : List Json) (rest : List Char) :
    EndsNumber (writeItems l depth items ++ rest) := by
  cases items with
  | nil =>
    rw [writeItems, List.append_assoc]
    exact endsNumber_append_cons (hl.lineBreak depth) (by decide)
  | cons item items => simp [writeItems, EndsNumber]

theorem endsNumber_writeEntries (depth : Nat) (entries : List (String × Json)) (rest : List Char) :
    EndsNumber (writeEntries l depth entries ++ rest) := by
  cases entries with
  | nil =>
    rw [writeEntries, List.append_assoc]
    exact endsNumber_append_cons (hl.lineBreak depth) (by decide)
  | cons e entries => simp [writeEntries, EndsNumber]

mutual

/-- The text of a value leads past the value. -/
theorem run_write {spot : Spot} (hspot : spot.TakesValue) {depth : Nat} {rest : List Char}
    (hrest : EndsNumber rest) {frames : List Frame} : ∀ {j : Json}, j.Exact →
    Building.run ⟨spot, frames⟩ (write l depth j ++ rest) =
      Building.run ⟨.after j.toDraft, frames⟩ rest
  | .null, _ => by
    rw [write, Building.run, tokens_null, List.foldl_cons, hspot.step_eq .null nofun]
    rfl
  | .bool b, _ => by
    rw [write, Building.run, tokens_bool, List.foldl_cons, hspot.step_eq (.bool b) nofun]
    rfl
  | .number n, hexact => by
    rw [write, Building.run, tokens_append_of_number hrest hexact, List.foldl_cons,
      hspot.step_eq (.number (some n)) nofun]
    rfl
  | .string s, _ => by
    rw [write, Building.run_stringText, hspot.step_eq (.string (some s)) nofun]
    rfl
  | .list [], _ => by
    rw [write, List.cons_append, Building.run_mark rfl fun _ => rfl, hspot.step_eq .openList nofun,
      List.cons_append, Building.run_mark rfl fun _ => rfl]
    rfl
  | .list (item :: items), hexact => by
    obtain ⟨hitem, hitems⟩ := hexact
    rw [write, List.cons_append, Building.run_mark rfl fun _ => rfl, hspot.step_eq .openList nofun,
      List.append_assoc, List.append_assoc, Building.run_append_of_isSpace (hl.lineBreak _)]
    exact (run_write (.inr rfl) (endsNumber_writeItems hl depth items rest) hitem).trans
      (run_writeItems hitems)
  | .object [], _ => by
    rw [write, List.cons_append, Building.run_mark rfl fun _ => rfl,
      hspot.step_eq .openObject nofun, List.cons_append, Building.run_mark rfl fun _ => rfl]
    rfl
  | .object ((key, value) :: entries), hexact => by
    obtain ⟨hvalue, hentries⟩ := hexact
    rw [write, List.cons_append, Building.run_mark rfl fun _ => rfl,
      hspot.step_eq .openObject nofun]
    simp only [List.append_assoc]
    rw [Building.run_append_of_isSpace (hl.lineBreak _), Building.run_stringText,
      Building.run_colon hl]
    exact (run_write (.inl rfl) (endsNumber_writeEntries hl depth entries rest) hvalue).trans
      (run_writeEntries hentries)

/-- The text of the other items leads past the list. -/
theorem run_writeItems {depth : Nat} {rest : List Char} {frames : List Frame} {ds : List Draft}
    {d : Draft} : ∀ {items : List Json}, ItemsExact items →
    Building.run ⟨.after d, .list ds :: frames⟩ (writeItems l depth items ++ rest) =
      Building.run ⟨.after (.list ((d :: ds).reverse ++ itemDrafts items) none), frames⟩ rest
  | [], _ => by
    rw [writeItems, List.append_assoc, Building.run_append_of_isSpace (hl.lineBreak _),
      List.cons_append, Building.run_mark rfl fun _ => rfl, itemDrafts, List.append_nil]
    rfl
  | item :: items, hexact => by
    obtain ⟨hitem, hitems⟩ := hexact
    rw [writeItems, List.cons_append, Building.run_mark rfl fun _ => rfl]
    simp only [List.append_assoc]
    rw [Building.run_append_of_isSpace (hl.lineBreak _)]
    refine (run_write (.inl rfl) (endsNumber_writeItems hl depth items rest) hitem).trans
      ((run_writeItems hitems).trans ?_)
    exact congrArg (fun d => Building.run ⟨.after d, frames⟩ rest) (by simp [itemDrafts])

/-- The text of the other entries leads past the object. -/
theorem run_writeEntries {depth : Nat} {rest : List Char} {frames : List Frame}
    {es : List (Option String × Draft)} {key : Option String} {d : Draft} :
    ∀ {entries : List (String × Json)}, EntriesExact entries →
    Building.run ⟨.after d, .object es key :: frames⟩ (writeEntries l depth entries ++ rest) =
      Building.run ⟨.after (.object (((key, d) :: es).reverse ++ entryDrafts entries) none), frames⟩
        rest
  | [], _ => by
    rw [writeEntries, List.append_assoc, Building.run_append_of_isSpace (hl.lineBreak _),
      List.cons_append, Building.run_mark rfl fun _ => rfl, entryDrafts, List.append_nil]
    rfl
  | (name, value) :: entries, hexact => by
    obtain ⟨hvalue, hentries⟩ := hexact
    rw [writeEntries, List.cons_append, Building.run_mark rfl fun _ => rfl]
    simp only [List.append_assoc]
    rw [Building.run_append_of_isSpace (hl.lineBreak _), Building.run_stringText,
      Building.run_colon hl]
    refine (run_write (.inl rfl) (endsNumber_writeEntries hl depth entries rest) hvalue).trans
      ((run_writeEntries hentries).trans ?_)
    exact congrArg (fun d => Building.run ⟨.after d, frames⟩ rest) (by simp [entryDrafts])

end

/-- A written value is read as its tree. -/
theorem draft_write {j : Json} (hj : j.Exact) : draft (write l 0 j) = (j.toDraft, false) := by
  have hrun : Building.run ⟨.value, []⟩ (write l 0 j ++ []) =
      Building.run ⟨.after j.toDraft, []⟩ [] :=
    run_write hl (.inl rfl) (by simp [EndsNumber]) hj
  rw [List.append_nil] at hrun
  rw [draft, ← Building.run, Building.start, hrun, Building.run, tokens]
  rfl

end

/-- What is decoded from a written text is what is decoded from its tree. -/
theorem decode_pretty {α : Type} (decoder : Decoder α) {j : Json} (hj : j.Exact) :
    decode decoder j.pretty = decoder j.toDraft := by
  simp only [decode, pretty, String.toList_ofList, draft_write Layout.isBlank_pretty hj]
  cases decoder j.toDraft <;> rfl

end Json

end RelTrace
