/-!
# Blank characters

The white space of Unicode, and what it decides about a text: where a text begins and ends once its
margins are cut off, and which words it is made of.

## Main definitions

* `isBlank`: the characters with the Unicode property White_Space.
* `trim`: a text without its blank margins.
* `words`: the maximal blank-free runs of a text.
-/

namespace RelTrace.Text

/-- White space, in the sense of the Unicode property of that name. -/
def isBlank (c : Char) : Bool :=
  let n := c.toNat
  (9 ≤ n && n ≤ 13) || n == 0x20 || n == 0x85 || n == 0xa0 || n == 0x1680 ||
    (0x2000 ≤ n && n ≤ 0x200a) || n == 0x2028 || n == 0x2029 || n == 0x202f || n == 0x205f ||
    n == 0x3000

/-- Cuts off the longest margins on both sides that lie in a class of characters. -/
def strip (margin : Char → Bool) (cs : List Char) : List Char :=
  ((cs.dropWhile margin).reverse.dropWhile margin).reverse

/-- The text without its blank margins. -/
def trim (s : String) : String := String.ofList (strip isBlank s.toList)

/-- Every character of the text is blank. -/
def isBlankText (s : String) : Bool := s.toList.all isBlank

/-- Puts a word in front of others, unless it is empty. -/
def consWord (word : List Char) (rest : List (List Char)) : List (List Char) :=
  if word.isEmpty then rest else word :: rest

/-- The run of non-blank characters at the front, which may be empty, and the words after it. -/
def firstRun : List Char → List Char × List (List Char)
  | [] => ([], [])
  | c :: cs =>
    let (run, rest) := firstRun cs
    if isBlank c then ([], consWord run rest) else (c :: run, rest)

/-- The words of a text: its maximal runs of non-blank characters, left to right. -/
def words (cs : List Char) : List (List Char) :=
  let (run, rest) := firstRun cs
  consWord run rest

end RelTrace.Text
