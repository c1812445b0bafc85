/-!
# Named entries in insertion order

Rows and databases are lists of named entries in which no name occurs twice. Writing to a name that
is present replaces its entry where it stands; a new name goes to the end.

## Main definitions

* `Keyed`: the entries with their order.
* `Keyed.find?`, `Keyed.insert`, `Keyed.merge`, `Keyed.ofList`.
* `Keyed.equal`: equality that does not look at the order.
-/

namespace RelTrace

/-- Replaces the entry of a name where it stands, or adds it at the end. -/
def putEntry {α : Type} (name : String) (a : α) : List (String × α) → List (String × α)
  | [] => [(name, a)]
  | (other, b) :: rest =>
    if other = name then (name, a) :: rest else (other, b) :: putEntry name a rest

theorem mem_names_putEntry {α : Type} {name x : String} {a : α} {entries : List (String × α)} :
    x ∈ (putEntry name a entries).map Prod.fst ↔ x = name ∨ x ∈ entries.map Prod.fst := by
  induction entries with
  | nil => simp [putEntry]
  | cons e rest ih => grind [putEntry]

theorem nodup_putEntry {α : Type} {name : String} {a : α} {entries : List (String × α)}
    (h : (entries.map Prod.fst).Nodup) : ((putEntry name a entries).map Prod.fst).Nodup := by
  induction entries with
  | nil => simp [putEntry]
  | cons e rest ih =>
    grind [putEntry, mem_names_putEntry]

theorem find?_putEntry {α : Type} (name other : String) (a : α) (entries : List (String × α)) :
    ((putEntry name a entries).find? fun e => e.1 == other).map Prod.snd =
      if other = name then some a
      else (entries.find? fun e => e.1 == other).map Prod.snd := by
  induction entries with
  | nil => grind [putEntry]
  | cons e rest ih => grind [putEntry]

/-- Entries in order, each name at most once. -/
structure Keyed (α : Type) where
  entries : List (String × α)
  nodup : (entries.map Prod.fst).Nodup

namespace Keyed

variable {α : Type}

/-- No entries. -/
def empty : Keyed α := ⟨[], by simp⟩

instance : Inhabited (Keyed α) := ⟨empty⟩

/-- The names, in order. -/
def names (k : Keyed α) : List String := k.entries.map Prod.fst

/-- The number of entries. -/
def size (k : Keyed α) : Nat := k.entries.length

/-- The entry of a name. -/
def find? (k : Keyed α) (name : String) : Option α :=
  (k.entries.find? fun e => e.1 == name).map Prod.snd

/-- Writes an entry: in place if the name is present, at the end otherwise. -/
def insert (k : Keyed α) (name : String) (a : α) : Keyed α :=
  ⟨putEntry name a k.entries, nodup_putEntry k.nodup⟩

theorem find?_insert (k : Keyed α) (name other : String) (a : α) :
    (k.insert name a).find? other = if other = name then some a else k.find? other :=
  find?_putEntry name other a k.entries

/-- Writes entries one after another. -/
def insertAll (k : Keyed α) (entries : List (String × α)) : Keyed α :=
  entries.foldl (fun k e => k.insert e.1 e.2) k

/-- Entries written in turn: a repeated name keeps its first place and its last entry. -/
def ofList (entries : List (String × α)) : Keyed α := empty.insertAll entries

/-- The entries of both sides; the right side wins on a name that both have. -/
def merge (k l : Keyed α) : Keyed α := k.insertAll l.entries

/-- The same names with the same entries under them, in whatever order. -/
def equal (same : α → α → Bool) (k l : Keyed α) : Bool :=
  k.size == l.size && k.entries.all fun (name, a) =>
    match l.find? name with
    | some b => same a b
    | none => false

end Keyed

end RelTrace
