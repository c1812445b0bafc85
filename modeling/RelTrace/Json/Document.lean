import RelTrace.Number.Text

/-!
# JSON documents

JSON values and their texts. A text is written either without any blanks or over several lines with
an indentation of two spaces; both come from one description of the layout.

## Main definitions

* `Json`: a JSON value, with object entries in order.
* `Json.compact`, `Json.pretty`: the two texts.
-/

namespace RelTrace

/-- A JSON value. -/
inductive Json where
  | null
  | bool (b : Bool)
  | number (n : Number)
  | string (s : String)
  | list (items : List Json)
  | object (entries : List (String × Json))

namespace Json

/-- Where the text of a JSON value has blanks. -/
structure Layout where
  /-- What stands before an item or a closing bracket at a depth. -/
  lineBreak : Nat → List Char
  /-- What stands between a key and its value. -/
  colon : List Char

/-- No blanks. -/
def Layout.compact : Layout := ⟨fun _ => [], [':']⟩

/-- Each item on its own line. -/
def Layout.pretty : Layout := ⟨fun depth => '\n' :: List.replicate (2 * depth) ' ', [':', ' ']⟩

/-- A character inside a JSON string. -/
def escape (c : Char) : List Char :=
  match c with
  | '"' => ['\\', '"']
  | '\\' => ['\\', '\\']
  | '\x08' => ['\\', 'b']
  | '\x0c' => ['\\', 'f']
  | '\n' => ['\\', 'n']
  | '\r' => ['\\', 'r']
  | '\t' => ['\\', 't']
  | c =>
    if c.toNat < 0x20 then
      ['\\', 'u', '0', '0', Nat.digitChar (c.toNat / 16), Nat.digitChar (c.toNat % 16)]
    else [c]

/-- A JSON string. -/
def stringText (s : String) : List Char := '"' :: (s.toList.flatMap escape ++ ['"'])

/-- A number, or `null` for what is not finite. -/
def numberText (n : Number) : List Char := (n.jsonText?.getD "null").toList

mutual

/-- The text of a value at a depth. -/
def write (l : Layout) (depth : Nat) : Json → List Char
  | null => "null".toList
  | bool b => (if b then "true" else "false").toList
  | number n => numberText n
  | string s => stringText s
  | list [] => ['[', ']']
  | list (item :: items) =>
    '[' :: (l.lineBreak (depth + 1) ++ write l (depth + 1) item ++ writeItems l depth items)
  | object [] => ['\x7b', '\x7d']
  | object ((key, value) :: entries) =>
    '\x7b' :: (l.lineBreak (depth + 1) ++ stringText key ++ l.colon ++ write l (depth + 1) value ++
      writeEntries l depth entries)

/-- The items of a list after the first one. -/
def writeItems (l : Layout) (depth : Nat) : List Json → List Char
  | [] => l.lineBreak depth ++ [']']
  | item :: items =>
    ',' :: (l.lineBreak (depth + 1) ++ write l (depth + 1) item ++ writeItems l depth items)

/-- The entries of an object after the first one. -/
def writeEntries (l : Layout) (depth : Nat) : List (String × Json) → List Char
  | [] => l.lineBreak depth ++ ['\x7d']
  | (key, value) :: entries =>
    ',' :: (l.lineBreak (depth + 1) ++ stringText key ++ l.colon ++ write l (depth + 1) value ++
      writeEntries l depth entries)

end

/-- The text without blanks. -/
def compact (j : Json) : String := String.ofList (j.write .compact 0)

/-- The text over several lines. -/
def pretty (j : Json) : String := String.ofList (j.write .pretty 0)

/-- A natural number. -/
def ofNat (n : Nat) : Json := number (.ofInt n)

end Json

end RelTrace
