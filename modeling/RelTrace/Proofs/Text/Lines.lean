import RelTrace.Proofs.Text.Cut

/-!
# Texts made of lines

A text that is written line by line gives its lines back: each of them goes on up to its end, and a
line that does not contain an end stops nowhere else. In the same way a run of characters of one
class can be told from what is written behind it.

## Main definitions

* `Text.unlines`: the lines one after another.
* `Text.HasLines`: the lines that a text consists of.
-/

namespace RelTrace.Text

/-- Two runs of one class are the same if they are followed by something outside of the class and
all is the same together. -/
theorem append_inj_of_runs {α : Type} {p : α → Bool} {xs ys rest rest' : List α}
    (hxs : ∀ a ∈ xs, p a) (hys : ∀ a ∈ ys, p a) (hrest : ∀ a ∈ rest.head?, p a = false)
    (hrest' : ∀ a ∈ rest'.head?, p a = false) (h : xs ++ rest = ys ++ rest') :
    xs = ys ∧ rest = rest' := by
  constructor
  · rw [← takeWhile_append_of_head? hxs hrest, h, takeWhile_append_of_head? hys hrest']
  · rw [← dropWhile_append_of_head? hxs hrest, h, dropWhile_append_of_head? hys hrest']

/-- What separates texts aside, they have the characters of their parts. -/
theorem mem_intercalate {c : Char} {separator : String} (h : c ∉ separator.toList)
    {parts : List String} :
    c ∈ (separator.intercalate parts).toList ↔ ∃ part ∈ parts, c ∈ part.toList := by
  induction parts with
  | nil => simp
  | cons part parts ih =>
    by_cases hparts : parts = []
    · simp [hparts]
    · rw [String.intercalate_cons_of_ne_nil hparts, String.toList_append, String.toList_append,
        List.mem_append, List.mem_append, ih, or_iff_left h, List.exists_mem_cons_iff]

theorem mem_intercalate_of_mem {c : Char} {part : String} {parts : List String} (separator : String)
    (hc : c ∈ part.toList) (hpart : part ∈ parts) :
    c ∈ (separator.intercalate parts).toList := by
  induction parts with
  | nil => cases hpart
  | cons first parts ih =>
    by_cases hparts : parts = []
    · subst hparts
      obtain rfl := List.mem_singleton.mp hpart
      simpa using hc
    · rw [String.intercalate_cons_of_ne_nil hparts, String.toList_append, String.toList_append]
      rcases List.mem_cons.mp hpart with rfl | hpart
      · exact List.mem_append_left _ (List.mem_append_left _ hc)
      · exact List.mem_append_right _ (ih hpart)

/-- The lines one after another, each with its end. -/
def unlines (lines : List String) : String := String.join (lines.map (· ++ "\n"))

@[simp] theorem unlines_nil : unlines [] = "" := rfl

@[simp] theorem unlines_cons (line : String) (lines : List String) :
    unlines (line :: lines) = line ++ "\n" ++ unlines lines := String.join_cons

@[simp] theorem unlines_append (lines lines' : List String) :
    unlines (lines ++ lines') = unlines lines ++ unlines lines' := by
  rw [unlines, List.map_append, String.join_append, unlines, unlines]

theorem unlines_flatMap {α : Type} (f : α → List String) (l : List α) :
    unlines (l.flatMap f) = String.join (l.map fun a => unlines (f a)) := by
  induction l with
  | nil => rfl
  | cons a l ih => rw [List.flatMap_cons, unlines_append, ih, List.map_cons, String.join_cons]

/-- The text consists of the lines, and none of them contains the end of a line. -/
structure HasLines (text : String) (lines : List String) : Prop where
  eq_unlines : text = unlines lines
  notMem : ∀ line ∈ lines, '\n' ∉ line.toList

/-- A text has its lines in one way only. -/
theorem HasLines.unique {text : String} {lines lines' : List String} (h : HasLines text lines)
    (h' : HasLines text lines') : lines = lines' := by
  induction lines generalizing text lines' with
  | nil =>
    cases lines' with
    | nil => rfl
    | cons line' lines' =>
      have hempty := congrArg String.toList (h.eq_unlines.symm.trans h'.eq_unlines)
      simp at hempty
  | cons line lines ih =>
    cases lines' with
    | nil =>
      have hempty := congrArg String.toList (h.eq_unlines.symm.trans h'.eq_unlines)
      simp at hempty
    | cons line' lines' =>
      have hends : line.toList ++ '\n' :: (unlines lines).toList =
          line'.toList ++ '\n' :: (unlines lines').toList := by
        simpa using congrArg String.toList (h.eq_unlines.symm.trans h'.eq_unlines)
      have hinside {l : String} (hl : '\n' ∉ l.toList) : ∀ c ∈ l.toList, c != '\n' :=
        fun c hc => bne_iff_ne.mpr fun heq => hl (heq ▸ hc)
      obtain ⟨hline, hrest⟩ := append_inj_of_runs (hinside (h.notMem line (by simp)))
        (hinside (h'.notMem line' (by simp))) (by simp) (by simp) hends
      have hlater : unlines lines = unlines lines' :=
        String.toList_inj.mp (List.cons.inj hrest).2
      rw [String.toList_inj.mp hline,
        ih ⟨rfl, fun l hl => h.notMem l (List.mem_cons_of_mem _ hl)⟩
          ⟨hlater, fun l hl => h'.notMem l (List.mem_cons_of_mem _ hl)⟩]

end RelTrace.Text
