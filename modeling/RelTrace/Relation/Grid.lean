import RelTrace.Relation.Basic

/-!
# Text tables

A relation is shown as a table between bars: a line of attribute names, a line of dashes, and a line
for each row. Every column is as wide as its widest cell.

## Main definitions

* `Relation.grid`: the text of the table.
-/

namespace RelTrace.Relation

/-- The text in the cell of a row; a missing attribute leaves it empty. -/
def cell (row : Row) (name : String) : String :=
  match row.find? name with
  | some v => v.plainText
  | none => ""

/-- The width of the column of an attribute. -/
def columnWidth (r : Relation) (name : String) : Nat :=
  r.foldl (fun width row => max width (cell row name).length) name.length

/-- A text filled up with spaces on the right. -/
def pad (width : Nat) (s : String) : String :=
  s ++ String.ofList (List.replicate (width - s.length) ' ')

/-- A line of cells, each in its width. -/
def gridLine (widths : List Nat) (cells : List String) : String :=
  "|" ++ String.join (List.zipWith (fun width s => " " ++ pad width s ++ " |") widths cells) ++ "\n"

/-- The relation as a table. -/
def grid (r : Relation) : String :=
  if r.isEmpty then "No data (empty result set)\n"
  else
    let names := attributes r
    let widths := names.map (columnWidth r)
    let rule := widths.map fun width => String.ofList (List.replicate width '-')
    let body := r.map fun row => gridLine widths (names.map (cell row))
    gridLine widths names ++ gridLine widths rule ++ String.join body

end RelTrace.Relation
