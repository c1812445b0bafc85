import Mathlib.Data.Nat.PSub
import Mathlib.Order.Bounds.Basic
import RelTrace.Proofs.Number.Numerals
import RelTrace.Proofs.Relation.Columns
import RelTrace.Proofs.Relation.Projection

/-!
# The layout of a table

The table of a relation is made of lines of one length, in which every column has its place: its
name, its dashes and its cells begin at one offset and are filled up to one width. The width is the
greatest length among them, so nothing is cut and no filling is negative. As the dashes tell the
widths, the table tells the names and the cells, except for the spaces at their ends.

## Main definitions

* `Relation.grid?`: the table, computed with checks of every difference and every place.
* `Relation.IsLaidOut`: what the lines of the table look like.
* `Relation.SameUpToSpaces`: relations that show the same.
-/

namespace RelTrace

/-! ## Values on one line -/

/-- A text value is a single line. -/
def Value.IsOneLine : Value → Prop
  | text s => '\n' ∉ s.toList
  | _ => True

instance : DecidablePred Value.IsOneLine
  | .text s => inferInstanceAs (Decidable ('\n' ∉ s.toList))
  | .bool _ | .number _ => .isTrue trivial

theorem Number.newline_notMem_plainText (n : Number) : '\n' ∉ n.plainText.toList := by
  cases n with
  | nan =>
    have hname : '\n' ∉ "NaN".toList := by decide
    exact hname
  | infinite negative => cases negative <;> decide
  | finite negative size =>
    obtain ⟨sign, numeral, htext, -⟩ := exists_plainText negative size
    have hdecimal : IsDecimal (withSign sign numeral.text) :=
      Decimal.isDecimal_of_isSome_read? (by rw [Numeral.read?_text]; rfl)
    rw [htext, String.toList_ofList]
    intro hmem
    have hchar := isDecimalChar_of_mem_dropSigns hdecimal '\n'
      (List.mem_filter.mpr ⟨hmem, by decide⟩)
    revert hchar
    decide

theorem Value.IsOneLine.newline_notMem {v : Value} (h : v.IsOneLine) :
    '\n' ∉ v.plainText.toList := by
  cases v with
  | bool b => cases b <;> decide
  | number n => exact n.newline_notMem_plainText
  | text s => exact h

namespace Relation

variable {r s : Relation} {name : String} {k i : Nat}

/-- No name and no text value of the relation contains the end of a line. -/
def IsOneLine (r : Relation) : Prop :=
  ∀ row ∈ r, ∀ entry ∈ row.entries, '\n' ∉ entry.1.toList ∧ entry.2.IsOneLine

instance : DecidablePred IsOneLine := fun r =>
  inferInstanceAs (Decidable (∀ row ∈ r, ∀ entry ∈ row.entries, _))

theorem IsOneLine.newline_notMem_name (h : r.IsOneLine) (hname : name ∈ r.attributes) :
    '\n' ∉ name.toList := by
  obtain ⟨row, hrow, hname⟩ := mem_attributes.mp hname
  obtain ⟨entry, hentry, rfl⟩ := List.mem_map.mp hname
  exact (h row hrow entry hentry).1

theorem IsOneLine.newline_notMem_cell (h : r.IsOneLine) {row : Row} (hrow : row ∈ r)
    (name : String) : '\n' ∉ (cell row name).toList := by
  rw [cell]
  split
  · next v hv =>
    obtain ⟨entry, hentry, rfl⟩ := Option.map_eq_some_iff.mp hv
    exact (h row hrow entry (List.mem_of_find?_eq_some hentry)).2.newline_notMem
  · simp

/-! ## The width of a column -/

theorem isGreatest_foldl_max {α : Type} (f : α → Nat) (l : List α) (n : Nat) :
    IsGreatest {m | m = n ∨ ∃ a ∈ l, m = f a} (l.foldl (fun m a => max m (f a)) n) := by
  induction l generalizing n with
  | nil => simp [IsGreatest, upperBounds]
  | cons a l ih =>
    obtain ⟨hmem, hle⟩ := ih (max n (f a))
    constructor
    · rcases hmem with hfirst | ⟨b, hb, hlater⟩
      · rcases max_choice n (f a) with hmax | hmax
        · exact .inl (hfirst.trans hmax)
        · exact .inr ⟨a, by simp, hfirst.trans hmax⟩
      · exact .inr ⟨b, by simp [hb], hlater⟩
    · have hfirst := hle (.inl rfl)
      rintro m (rfl | ⟨b, hb, rfl⟩)
      · exact (le_max_left _ _).trans hfirst
      · rcases List.mem_cons.mp hb with rfl | hb
        · exact (le_max_right _ _).trans hfirst
        · exact hle (.inr ⟨b, hb, rfl⟩)

/-- A column is as wide as the longest text in it. -/
theorem isGreatest_columnWidth (r : Relation) (name : String) :
    IsGreatest {n | n = name.length ∨ ∃ row ∈ r, n = (cell row name).length}
      (columnWidth r name) :=
  isGreatest_foldl_max _ _ _

theorem length_name_le (r : Relation) (name : String) : name.length ≤ columnWidth r name :=
  (isGreatest_columnWidth r name).2 (.inl rfl)

theorem length_cell_le {row : Row} (hrow : row ∈ r) (name : String) :
    (cell row name).length ≤ columnWidth r name :=
  (isGreatest_columnWidth r name).2 (.inr ⟨row, hrow, rfl⟩)

/-! ## The lines -/

/-- The widths of the columns. -/
def columnWidths (r : Relation) : List Nat := r.attributes.map (columnWidth r)

/-- The cells of each line: the names, the dashes and the rows. -/
def gridCells (r : Relation) : List (List String) :=
  r.attributes :: (columnWidths r).map dashes :: r.map fun row => r.attributes.map (cell row)

/-- The lines of the table, without their ends. -/
def gridLines (r : Relation) : List String := (gridCells r).map (barLine (columnWidths r))

theorem fit_of_mem_gridCells {cells : List String} (h : cells ∈ gridCells r) :
    Fit (columnWidths r) cells := by
  rcases List.mem_cons.mp h with rfl | h
  · exact List.forall₂_map_left_iff.mpr (List.forall₂_same.mpr fun name _ => length_name_le r name)
  rcases List.mem_cons.mp h with rfl | h
  · exact fit_dashes _
  · obtain ⟨row, hrow, rfl⟩ := List.mem_map.mp h
    exact List.forall₂_map_left_iff.mpr <| List.forall₂_map_right_iff.mpr <|
      List.forall₂_same.mpr fun name _ => length_cell_le hrow name

theorem gridLine_eq_barLine (widths : List Nat) (cells : List String) :
    gridLine widths cells = barLine widths cells ++ "\n" := rfl

theorem grid_eq_unlines (h : r ≠ []) : r.grid = Text.unlines (gridLines r) := by
  rw [grid, if_neg (by simpa using h)]
  simp [gridLines, gridCells, columnWidths, gridLine_eq_barLine, Text.unlines, Function.comp_def,
    dashes, String.append_assoc]

theorem newline_notMem_barLine {widths : List Nat} {cells : List String}
    (h : ∀ s ∈ cells, '\n' ∉ s.toList) : '\n' ∉ (barLine widths cells).toList := by
  rw [toList_barLine]
  induction widths generalizing cells with
  | nil => simp [fields]
  | cons width widths ih =>
    cases cells with
    | nil => simp [fields]
    | cons s cells =>
      have hlater := ih fun s hs => h s (List.mem_cons_of_mem _ hs)
      simp only [List.mem_cons, not_or] at hlater
      simp [pad, h s List.mem_cons_self, hlater.2]

theorem hasLines_grid (hne : r ≠ []) (h : r.IsOneLine) : Text.HasLines r.grid (gridLines r) where
  eq_unlines := grid_eq_unlines hne
  notMem line hline := by
    obtain ⟨cells, hcells, rfl⟩ := List.mem_map.mp hline
    refine newline_notMem_barLine fun s hs => ?_
    rcases List.mem_cons.mp hcells with rfl | hcells
    · exact h.newline_notMem_name hs
    rcases List.mem_cons.mp hcells with rfl | hcells
    · obtain ⟨width, -, rfl⟩ := List.mem_map.mp hs
      simp [dashes]
    · obtain ⟨row, hrow, rfl⟩ := List.mem_map.mp hcells
      obtain ⟨name, -, rfl⟩ := List.mem_map.mp hs
      exact h.newline_notMem_cell hrow name

/-- The texts of a column: the name, the dashes and the cells. -/
def columnTexts (r : Relation) (name : String) : List String :=
  name :: dashes (columnWidth r name) :: r.map fun row => cell row name

/-- Where the column at a place begins. -/
def columnStart (r : Relation) (k : Nat) : Nat := offset ((columnWidths r).take k)

/-- The lines form a rectangle in which every column has its place. -/
structure IsLaidOut (r : Relation) (lines : List String) : Prop where
  length_eq : lines.length = r.length + 2
  length_line : ∀ line ∈ lines, line.length = ((columnWidths r).map (· + 3)).sum + 1
  /-- Each line has its text of each column there, filled up with spaces. -/
  exists_text : ∀ (k : Nat) (name : String), r.attributes[k]? = some name →
    ∀ (i : Nat) (line : String), lines[i]? = some line →
    ∃ s, (columnTexts r name)[i]? = some s ∧ s.length ≤ columnWidth r name ∧
      BlockAt (columnStart r k) (pad (columnWidth r name) s).toList line.toList

/-- Looking up a line and then a column is looking up the column and then the line. -/
theorem getElem?_columnTexts (hname : r.attributes[k]? = some name) {cells : List String}
    (hcells : (gridCells r)[i]? = some cells) : (columnTexts r name)[i]? = cells[k]? := by
  match i with
  | 0 =>
    obtain rfl := Option.some.inj hcells
    exact hname.symm
  | 1 =>
    obtain rfl := Option.some.inj hcells
    simp [columnTexts, columnWidths, hname]
  | i + 2 =>
    obtain ⟨row, hrow, rfl⟩ : ∃ row, r[i]? = some row ∧ r.attributes.map (cell row) = cells := by
      simpa [gridCells] using hcells
    simp [columnTexts, hname, hrow]

theorem isLaidOut_gridLines (r : Relation) : IsLaidOut r (gridLines r) where
  length_eq := by simp [gridLines, gridCells]
  length_line line hline := by
    obtain ⟨cells, hcells, rfl⟩ := List.mem_map.mp hline
    exact length_barLine (fit_of_mem_gridCells hcells)
  exists_text k name hname i line hline := by
    obtain ⟨cells, hcells, rfl⟩ : ∃ cells, (gridCells r)[i]? = some cells ∧
        barLine (columnWidths r) cells = line := by
      simpa [gridLines] using hline
    have hfit := fit_of_mem_gridCells (List.mem_of_getElem? hcells)
    have hwidth : (columnWidths r)[k]? = some (columnWidth r name) := by
      simp [columnWidths, hname]
    obtain ⟨s, hs⟩ : ∃ s, cells[k]? = some s := by
      have hk : k < (columnWidths r).length := (List.getElem?_eq_some_iff.mp hwidth).1
      exact ⟨_, List.getElem?_eq_getElem (hfit.length_eq ▸ hk)⟩
    exact ⟨s, (getElem?_columnTexts hname hcells).trans hs, hfit.length_le hwidth hs,
      blockAt_barLine hfit hwidth hs⟩

/-! ## What a table tells -/

/-- The columns are equally wide, and the names and the cells are the same up to the spaces at their
ends. -/
structure SameUpToSpaces (r s : Relation) : Prop where
  columnWidths_eq : columnWidths r = columnWidths s
  attributes : List.Forall₂ EqUpToSpaces r.attributes s.attributes
  cells : List.Forall₂ (fun row row' =>
    List.Forall₂ EqUpToSpaces (r.attributes.map (cell row)) (s.attributes.map (cell row'))) r s

theorem gridLines_eq_gridLines_iff : gridLines r = gridLines s ↔ SameUpToSpaces r s := by
  have hlines (hwidths : columnWidths r = columnWidths s) : gridLines r = gridLines s ↔
      List.Forall₂ (List.Forall₂ EqUpToSpaces) (gridCells r) (gridCells s) := by
    rw [← List.forall₂_eq_eq_eq, gridLines, gridLines, List.forall₂_map_left_iff,
      List.forall₂_map_right_iff, ← hwidths, List.forall₂_iff_zip, List.forall₂_iff_zip]
    refine and_congr_right fun _ => forall₂_congr fun cells cells' => forall_congr' fun hzip => ?_
    obtain ⟨hcells, hcells'⟩ := List.of_mem_zip hzip
    exact barLine_eq_barLine_iff (fit_of_mem_gridCells hcells)
      (hwidths ▸ fit_of_mem_gridCells hcells')
  constructor
  · intro h
    have hrule : barLine (columnWidths r) ((columnWidths r).map dashes) =
        barLine (columnWidths s) ((columnWidths s).map dashes) :=
      (List.cons.inj (List.cons.inj h).2).1
    have hwidths := widths_eq_of_rule_eq hrule
    have hcells := (hlines hwidths).mp h
    simp only [gridCells, List.forall₂_cons, List.forall₂_map_left_iff,
      List.forall₂_map_right_iff] at hcells
    obtain ⟨hnames, -, hrows⟩ := hcells
    exact ⟨hwidths, hnames, by simpa using hrows⟩
  · intro h
    refine (hlines h.columnWidths_eq).mpr (.cons h.attributes (.cons ?_ ?_))
    · rw [h.columnWidths_eq]
      exact List.forall₂_same.mpr fun _ _ => rfl
    · exact List.forall₂_map_left_iff.mpr (List.forall₂_map_right_iff.mpr h.cells)

theorem grid_eq_grid_iff (hr : r ≠ []) (hs : s ≠ []) (hr' : r.IsOneLine) (hs' : s.IsOneLine) :
    r.grid = s.grid ↔ SameUpToSpaces r s := by
  rw [← gridLines_eq_gridLines_iff]
  constructor
  · intro h
    exact (hasLines_grid hr hr').unique (h ▸ hasLines_grid hs hs')
  · intro h
    rw [grid_eq_unlines hr, grid_eq_unlines hs, h]

/-! ## The table with checks -/

/-- A text filled up to a width, unless it is longer. -/
def pad? (width : Nat) (s : String) : Option String :=
  (width.psub s.length).map fun spaces => s ++ String.ofList (List.replicate spaces ' ')

/-- A line of cells, unless a cell is longer than its column is wide. -/
def gridLine? (widths : List Nat) (cells : List String) : Option String := do
  let padded ← (widths.zip cells).mapM fun (width, s) => pad? width s
  return "|" ++ String.join (padded.map fun s => " " ++ s ++ " |") ++ "\n"

/-- The greatest length of a name and of the cells at a place of the lines, unless a line has no
cell there. -/
def columnWidth? (lines : List (List String)) (k : Nat) (name : String) : Option Nat := do
  let column ← lines.mapM fun cells => cells[k]?
  return column.foldl (fun width s => max width s.length) name.length

/-- The table, unless a cell is missing or too long. -/
def grid? (r : Relation) : Option String :=
  if r.isEmpty then some "No data (empty result set)\n"
  else do
    let names := r.attributes
    let lines := r.map fun row => names.map (cell row)
    let widths ← names.zipIdx.mapM fun (name, k) => columnWidth? lines k name
    let header ← gridLine? widths names
    let rule ← gridLine? widths (widths.map dashes)
    let body ← lines.mapM (gridLine? widths)
    return header ++ rule ++ String.join body

theorem gridLine?_eq {widths : List Nat} {cells : List String} (h : Fit widths cells) :
    gridLine? widths cells = some (gridLine widths cells) := by
  have hpad : ∀ entry ∈ widths.zip cells,
      pad? entry.1 entry.2 = some (pad entry.1 entry.2) := by
    intro entry hentry
    rw [pad?, Nat.psub_eq_sub ((List.forall₂_iff_zip.mp h).2 hentry)]
    rfl
  rw [gridLine?, mapM_eq_some_map hpad]
  simp [gridLine, List.map_zip_eq_zipWith, List.map_zipWith]

theorem columnWidth?_eq (hname : r.attributes[k]? = some name) :
    columnWidth? (r.map fun row => r.attributes.map (cell row)) k name =
      some (columnWidth r name) := by
  have hcell : ∀ row ∈ r, (r.attributes.map (cell row))[k]? = some (cell row name) := by
    intro row _
    rw [List.getElem?_map, hname, Option.map_some]
  rw [columnWidth?, List.mapM_map]
  simp only [Function.comp_def, mapM_eq_some_map hcell]
  simp [columnWidth, List.foldl_map]

/-- No check fails. -/
theorem grid?_eq (r : Relation) : r.grid? = some r.grid := by
  unfold grid? grid
  split
  · rfl
  have hwidths : r.attributes.zipIdx.mapM (fun (name, k) =>
      columnWidth? (r.map fun row => r.attributes.map (cell row)) k name) =
        some (columnWidths r) := by
    rw [mapM_eq_some_map fun entry hentry =>
      columnWidth?_eq (List.mk_mem_zipIdx_iff_getElem?.mp hentry), columnWidths]
    nth_rewrite 2 [← List.zipIdx_map_fst 0 r.attributes]
    rw [List.map_map]
    rfl
  have hline {cells : List String} (h : cells ∈ gridCells r) :
      gridLine? (columnWidths r) cells = some (gridLine (columnWidths r) cells) :=
    gridLine?_eq (fit_of_mem_gridCells h)
  have hbody := mapM_eq_some_map (l := r.map fun row => r.attributes.map (cell row))
    fun cells hcells => hline (List.mem_cons_of_mem _ (List.mem_cons_of_mem _ hcells))
  simp only [hwidths, Option.bind_eq_bind, Option.bind_some, hline List.mem_cons_self,
    hline (List.mem_cons_of_mem _ List.mem_cons_self), hbody]
  simp only [columnWidths, List.map_map, Function.comp_def]
  rfl

/-- The table of a relation whose names and texts are single lines is computed without a missing
cell or a negative filling. Its columns are the names that occur, each once and in the order in
which they are first met, and each is as wide as its longest text. It consists of the line of names,
the line of dashes and a line for each row, all equally long, in which each column begins at one
place. Two such relations have one table exactly if they have equally wide columns and the same
names and cells up to the spaces at their ends. -/
theorem grid_is_rectangular_and_lossless (hne : r ≠ []) (h : r.IsOneLine) :
    r.grid? = some r.grid ∧
      r.attributes.Nodup ∧
      (∀ name, name ∈ r.attributes ↔ ∃ row ∈ r, name ∈ row.names) ∧
      (r.attributes.Pairwise fun a b =>
        (r.flatMap Keyed.names).idxOf a < (r.flatMap Keyed.names).idxOf b) ∧
      (∀ name, IsGreatest {n | n = name.length ∨ ∃ row ∈ r, n = (cell row name).length}
        (columnWidth r name)) ∧
      (∃ lines, Text.HasLines r.grid lines ∧ IsLaidOut r lines) ∧
      ∀ s : Relation, s ≠ [] → s.IsOneLine → (r.grid = s.grid ↔ SameUpToSpaces r s) :=
  ⟨grid?_eq r, nodup_attributes r, fun _ => mem_attributes, pairwise_idxOf_eraseDups _,
    isGreatest_columnWidth r, ⟨gridLines r, hasLines_grid hne h, isLaidOut_gridLines r⟩,
    fun _ hs hs' => grid_eq_grid_iff hne hs h hs'⟩

theorem grid_is_rectangular_and_lossless_spaces :
    let r : Relation :=
      [.ofList [("a ", .text "x"), ("é|", .text "-- |")], .ofList [("", .bool true)]]
    let s : Relation :=
      [.ofList [("a", .text "x "), ("é|", .text "-- |")], .ofList [("", .text "true")]]
    r ≠ [] ∧ r.IsOneLine ∧ s ≠ [] ∧ s.IsOneLine ∧
      r.grid? = some ("| a  | é|   |      |\n" ++ "| -- | ---- | ---- |\n" ++
        "| x  | -- | |      |\n" ++ "|    |      | true |\n") ∧
      r.attributes ≠ s.attributes ∧ SameUpToSpaces r s := by
  intro r s
  have hr : r.IsOneLine := by decide +kernel
  have hs : s.IsOneLine := by decide +kernel
  obtain ⟨hcomputed, -, -, -, -, -, hsame⟩ := grid_is_rectangular_and_lossless (by decide) hr
  refine ⟨by decide, hr, by decide, hs, hcomputed.trans ?_, by decide +kernel,
    (hsame s (by decide) hs).mp ?_⟩
  · decide +kernel
  · decide +kernel

end Relation

end RelTrace
