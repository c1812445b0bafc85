import RelTrace.Json.Draft
import RelTrace.Keyed

/-!
# Decoding JSON texts

A decoder looks for a value of one kind in a draft, in the order of the text, so that the first
fault met is the fault of the whole. A value of the wrong kind is refused where it begins, except
where a value of any kind is read before it is judged.

## Main definitions

* `Json.Decoder`: from drafts to values.
* `Json.decodeString`, `Json.decodeList`, `Json.decodeEntries`, `Json.decodeOption`.
* `Json.Draft.fault?`, `Json.Draft.skipFault?`: the first fault when a value is read or skipped.
* `Json.decode`: decodes a whole text.
-/

namespace RelTrace.Json

/-- Finds a value of one kind in a draft. -/
abbrev Decoder (α : Type) := Draft → Except Fault α

/-- Lists and objects may be nested up to this depth where a value of any kind is read. -/
def nestingBound : Nat := 127

/-- The fault of a value of the wrong kind. A scalar is read before it is refused. -/
def Draft.mismatch : Draft → Fault
  | number none | string none => .malformed
  | broken f => f.onRead
  | _ => .unfit

mutual

/-- The first fault when a value of any kind is read, with room for some levels of nesting. -/
def Draft.fault? (room : Nat) : Draft → Option Fault
  | .number none | .string none => some .malformed
  | .null | .bool _ | .number (some _) | .string (some _) => none
  | .broken f => some f.onRead
  | .list items stop =>
    if room = 0 then some .malformed
    else (itemsFault? (room - 1) items).or (stop.map Flaw.onRead)
  | .object entries stop =>
    if room = 0 then some .malformed
    else (entriesFault? (room - 1) entries).or (stop.map Flaw.onRead)

/-- The first fault in a list of values. -/
def itemsFault? (room : Nat) : List Draft → Option Fault
  | [] => none
  | d :: ds => (d.fault? room).or (itemsFault? room ds)

/-- The first fault in a list of entries. -/
def entriesFault? (room : Nat) : List (Option String × Draft) → Option Fault
  | [] => none
  | (none, _) :: _ => some .malformed
  | (some _, d) :: es => (d.fault? room).or (entriesFault? room es)

end

mutual

/-- The first fault when a value is skipped. -/
def Draft.skipFault? : Draft → Option Fault
  | .null | .bool _ | .number _ | .string _ => none
  | .broken f => some f.onSkip
  | .list items stop => (itemsSkipFault? items).or (stop.map Flaw.onSkip)
  | .object entries stop => (entriesSkipFault? entries).or (stop.map Flaw.onSkip)

/-- The first fault when a list of values is skipped. -/
def itemsSkipFault? : List Draft → Option Fault
  | [] => none
  | d :: ds => d.skipFault?.or (itemsSkipFault? ds)

/-- The first fault when a list of entries is skipped. -/
def entriesSkipFault? : List (Option String × Draft) → Option Fault
  | [] => none
  | (_, d) :: es => d.skipFault?.or (entriesSkipFault? es)

end

/-- Nothing, or the fault of a list or an object that does not end. -/
def checkStop : Option Flaw → Except Fault Unit
  | some f => .error f.onRead
  | none => .ok ()

/-- The key of an entry. -/
def decodeKey : Option String → Except Fault String
  | some key => .ok key
  | none => .error .malformed

/-- A string. -/
def decodeString : Decoder String
  | .string (some s) => .ok s
  | d => .error d.mismatch

/-- A list of values of one kind. -/
def decodeList {α : Type} (item : Decoder α) : Decoder (List α)
  | .list items stop => do
    let as ← items.mapM item
    checkStop stop
    return as
  | d => .error d.mismatch

/-- The entries of an object whose values are of one kind. -/
def decodeEntries {α : Type} (value : Decoder α) : Decoder (List (String × α))
  | .object entries stop => do
    let as ← entries.mapM fun (key, d) => return (← decodeKey key, ← value d)
    checkStop stop
    return as
  | d => .error d.mismatch

/-- An object as named entries; a repeated key keeps its first place and its last value. -/
def decodeKeyed {α : Type} (value : Decoder α) : Decoder (Keyed α) := fun d =>
  (decodeEntries value d).map Keyed.ofList

/-- A value, or `null`. -/
def decodeOption {α : Type} (value : Decoder α) : Decoder (Option α)
  | .null => .ok none
  | d => (value d).map some

/-- Any value, which is not looked at. -/
def skip : Decoder Unit := fun d =>
  match d.skipFault? with
  | some f => .error f
  | none => .ok ()

/-- Decodes a whole text. -/
def decode {α : Type} (decoder : Decoder α) (text : String) : Except Fault α := do
  let (d, trailing) := draft text.toList
  let a ← decoder d
  if trailing then .error .malformed else .ok a

end RelTrace.Json
