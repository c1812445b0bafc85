import RelTrace.Proofs.Database.RoundTrip
import RelTrace.Proofs.Text.LowerCase
import RelTrace.Proofs.Text.Lines

/-!
# File names as normal forms

The slug of a name is a normal form of the name: it is its own slug, and which blank characters
stand at the ends of the name and between its parts makes no difference to it. A name that is not
blank has a slug that is not empty, so that the file name of a loaded database is more than its
ending.

## Main definitions

* `IsSlug`: the texts without blank characters and without characters that lower-casing changes.
-/

namespace RelTrace

open Text

/-- No character of the text is blank or changed by lower-casing. -/
def IsSlug (s : String) : Prop := ∀ c ∈ s.toList, isBlank c = false ∧ IsLower c

variable {c g : Char} {run xs ys : List Char} {name : String}

theorem lower_of_isSlug (h : IsSlug name) : lower name.toList = name.toList :=
  lowerAfter_of_forall fun c hc => (h c hc).2

/-- All that is not blank after lower-casing is kept. -/
theorem mem_slug (hc : c ∈ lower name.toList) (hblank : isBlank c = false) :
    c ∈ (slug name).toList := by
  obtain ⟨word, hword, hmem⟩ := exists_mem_words.mpr ⟨hc, hblank⟩
  have hpart : c ∈ (String.ofList word).toList := by rwa [String.toList_ofList]
  exact mem_intercalate_of_mem "-" hpart (List.mem_map_of_mem hword)

theorem isSlug_slug (name : String) : IsSlug (slug name) := by
  intro c hc
  by_cases hhyphen : c = '-'
  · subst hhyphen
    decide
  · have hnot : c ∉ "-".toList := by simpa using hhyphen
    obtain ⟨part, hpart, hmem⟩ := (mem_intercalate hnot).mp hc
    obtain ⟨word, hword, rfl⟩ := List.mem_map.mp hpart
    rw [String.toList_ofList] at hmem
    obtain ⟨hlower, hblank⟩ := exists_mem_words.mp ⟨word, hword, hmem⟩
    exact ⟨hblank, isLower_of_mem_lowerAfter hlower⟩

/-- The slugs are the texts that are slugs of themselves. -/
theorem slug_eq_self_iff : slug name = name ↔ IsSlug name := by
  constructor
  · intro h
    rw [← h]
    exact isSlug_slug name
  · intro h
    have hwords := words_of_forall fun c hc => (h c hc).1
    rw [slug, lower_of_isSlug h, hwords, ← String.toList_inj]
    cases hname : name.toList with
    | nil => simp [consWord]
    | cons c cs => simp [consWord]

/-- A name that is not blank has a slug that is not empty. -/
theorem slug_ne_empty (h : isBlankText name = false) : slug name ≠ "" := by
  intro hempty
  obtain ⟨c, hc, hblank⟩ : ∃ c ∈ name.toList, isBlank c = false := by
    simpa [isBlankText] using h
  obtain ⟨d, hd, hblank'⟩ : ∃ d ∈ lower name.toList, isBlank d = false :=
    exists_mem_lowerAfter ⟨c, hc, hblank⟩
  have hmem := mem_slug hd hblank'
  rw [hempty] at hmem
  cases hmem

/-- A blank run at the front of a text makes no difference to its lower-case words. -/
theorem words_lower_run (hrun : ∀ g ∈ run, isBlank g) :
    words (lower (run ++ ys)) = words (lower ys) := by
  induction run with
  | nil => rfl
  | cons g run ih =>
    obtain ⟨hg, hrun⟩ := List.forall_mem_cons.mp hrun
    have hsplit : lower (g :: (run ++ ys)) = lower [] ++ g :: lower (run ++ ys) :=
      @lower_append_blank g [] (run ++ ys) hg
    rw [List.cons_append, hsplit, words_append_blank hg, ih hrun]
    rfl

/-- The lower-case words on both sides of a blank run. -/
theorem words_lower_append_run (hrun : ∀ g ∈ run, isBlank g) (hne : run ≠ []) :
    words (lower (xs ++ run ++ ys)) = words (lower xs) ++ words (lower ys) := by
  obtain ⟨g, run, rfl⟩ := List.exists_cons_of_ne_nil hne
  obtain ⟨hg, hrun⟩ := List.forall_mem_cons.mp hrun
  rw [List.append_assoc, List.cons_append, lower_append_blank hg, words_append_blank hg,
    words_lower_run hrun]

theorem words_lower_margins {left right : List Char} (hleft : ∀ g ∈ left, isBlank g)
    (hright : ∀ g ∈ right, isBlank g) :
    words (lower (left ++ xs ++ right)) = words (lower xs) := by
  rw [List.append_assoc, words_lower_run hleft]
  by_cases hne : right = []
  · rw [hne, List.append_nil]
  · have hsplit := @words_lower_append_run right xs [] hright hne
    rw [List.append_nil] at hsplit
    rw [hsplit]
    exact List.append_nil _

/-- Blank margins make no difference to a slug. -/
theorem slug_margins {left right : String} (name : String) (hleft : isBlankText left)
    (hright : isBlankText right) : slug (left ++ name ++ right) = slug name := by
  rw [slug, slug, String.toList_append, String.toList_append,
    words_lower_margins (List.all_eq_true.mp hleft) (List.all_eq_true.mp hright)]

/-- Which blank run stands between two parts of a name makes no difference to its slug. -/
theorem slug_runs {run run' : String} (before after : String) (hrun : isBlankText run)
    (hne : run ≠ "") (hrun' : isBlankText run') (hne' : run' ≠ "") :
    slug (before ++ run ++ after) = slug (before ++ run' ++ after) := by
  have hwords {gap : String} (hgap : isBlankText gap) (hne : gap ≠ "") :
      words (lower (before ++ gap ++ after).toList) =
        words (lower before.toList) ++ words (lower after.toList) := by
    rw [String.toList_append, String.toList_append]
    exact words_lower_append_run (List.all_eq_true.mp hgap)
      fun hnil => hne (String.toList_eq_nil_iff.mp hnil)
  rw [slug, slug, hwords hrun hne, hwords hrun' hne']

/-- The name of the file that a loaded database is exported to is a slug and the ending. The slug is
not empty, has no blank character and none that lower-casing changes, and is its own slug; these
texts and no others are slugs of themselves. Which blank characters stand at the ends of a name, and
which stand between two parts of it, makes no difference. -/
theorem file_names_are_normal_forms :
    (∀ (text : String) (d : Database), Database.ofText text = .ok d →
      d.fileName = slug d.name ++ ".json" ∧ slug d.name ≠ "" ∧
        (∀ c ∈ (slug d.name).toList, isBlank c = false ∧ lower [c] = [c]) ∧
        lower (slug d.name).toList = (slug d.name).toList) ∧
    (∀ name, slug (slug name) = slug name) ∧
    (∀ name, slug name = name ↔ ∀ c ∈ name.toList, isBlank c = false ∧ lower [c] = [c]) ∧
    (∀ left name right, isBlankText left → isBlankText right →
      slug (left ++ name ++ right) = slug name) ∧
    ∀ before run run' after, isBlankText run → run ≠ "" → isBlankText run' → run' ≠ "" →
      slug (before ++ run ++ after) = slug (before ++ run' ++ after) := by
  refine ⟨fun text d h => ⟨rfl, ?_, isSlug_slug d.name, lower_of_isSlug (isSlug_slug d.name)⟩,
    fun name => slug_eq_self_iff.mpr (isSlug_slug name), fun name => slug_eq_self_iff,
    fun left name right => slug_margins name, fun before run run' after => slug_runs before after⟩
  exact slug_ne_empty (Database.decode_eq_ok_of_ofText h).2

/-- A database whose name has several kinds of blank characters, a final sigma and a character that
lower-casing makes two of. -/
def harbour : Database where
  name := "\t\u2003ΣΑΣ  İX"
  description? := none
  tables := .empty
  examples := []
  diagram? := none

theorem harbour_is_a_normal_form :
    Database.ofText harbour.toText = .ok harbour ∧ slug harbour.name = "σας-i\u0307x" ∧
      slug harbour.name ≠ "" ∧ lower (slug harbour.name).toList = (slug harbour.name).toList ∧
      slug ("\n" ++ "ΣΑΣ" ++ "\u3000") = slug "ΣΑΣ" ∧
      slug ("ΣΑΣ" ++ " \t" ++ "İX") = slug ("ΣΑΣ" ++ "\u00a0" ++ "İX") := by
  have hload : Database.ofText harbour.toText = .ok harbour := by
    refine Database.ofText_toText (by decide +kernel) ?_
    have hvalues : harbour.values = [] := rfl
    simp [hvalues]
  obtain ⟨hloaded, -, -, hmargins, hruns⟩ := file_names_are_normal_forms
  obtain ⟨-, hne, -, hlower⟩ := hloaded _ _ hload
  exact ⟨hload, by decide +kernel, hne, hlower, hmargins _ _ _ (by decide) (by decide),
    hruns _ _ _ _ (by decide) (by decide) (by decide) (by decide)⟩

end RelTrace
