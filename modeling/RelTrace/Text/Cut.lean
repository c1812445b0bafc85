/-!
# Cutting a text at a mark

A mark is looked for from left to right, and its occurrences do not overlap.

## Main definitions

* `cut?`: the parts around the first occurrence.
* `soleCut?`: the parts around the only occurrence.
-/

namespace RelTrace.Text

/-- The text before and after the first occurrence of a mark. -/
def cut? (mark : List Char) : List Char → Option (List Char × List Char)
  | [] => if mark.isEmpty then some ([], []) else none
  | c :: cs =>
    if mark.isPrefixOf (c :: cs) then some ([], (c :: cs).drop mark.length)
    else (cut? mark cs).map fun (before, after) => (c :: before, after)

/-- The text before and after a mark that occurs exactly once. -/
def soleCut? (mark cs : List Char) : Option (List Char × List Char) :=
  match cut? mark cs with
  | some (before, after) => if (cut? mark after).isNone then some (before, after) else none
  | none => none

end RelTrace.Text
