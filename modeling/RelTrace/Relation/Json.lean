import RelTrace.Json.Decode
import RelTrace.Json.Document
import RelTrace.Relation.Basic

/-!
# Relations in JSON

A relation is a list of objects, one for each row, whose values are truth values, numbers and
strings.

## Main definitions

* `Relation.toJson`, `Relation.decode`.
-/

namespace RelTrace

/-- A value as JSON. -/
def Value.toJson : Value → Json
  | bool b => .bool b
  | number n => .number n
  | text s => .string s

/-- A row as an object. -/
def Row.toJson (r : Row) : Json := .object (r.entries.map fun (name, v) => (name, v.toJson))

/-- A relation as a list of objects. -/
def Relation.toJson (r : Relation) : Json := .list (r.map Row.toJson)

/-- A truth value, a number or a string. Any other value is read to its end and then refused. -/
def Value.decode (room : Nat) : Json.Decoder Value
  | .bool b => .ok (.bool b)
  | .number (some n) => .ok (.number n)
  | .string (some s) => .ok (.text s)
  | d => .error ((d.fault? room).getD .unfit)

/-- A row; the room is that for lists and objects inside it. -/
def Row.decode (room : Nat) : Json.Decoder Row := Json.decodeKeyed (Value.decode room)

/-- A relation that stands inside a number of lists and objects. -/
def Relation.decode (depth : Nat) : Json.Decoder Relation :=
  Json.decodeList (Row.decode (Json.nestingBound - (depth + 2)))

end RelTrace
