import Mathlib.Logic.Equiv.Defs
import RelTrace.Proofs.Catalog.Runs

/-!
# Catalogs with an index

The databases of a catalog can be held in one list, with the index of the current one. Adding and
switching keep the index in the range of the list. A catalog that is split at its current database
holds the same data, and whatever is done to it is done to the list with the index.

## Main definitions

* `IndexedCatalog`: the list of databases with an index in its range.
* `IndexedCatalog.add`, `IndexedCatalog.switchTo`, `IndexedCatalog.current`.
* `Catalog.indexed`, `Catalog.equivIndexed`: the list and the index of a catalog.
* `Catalog.Change`: what changes a catalog.
-/

namespace RelTrace

/-- Databases in order, and which of them is current. -/
@[ext]
structure IndexedCatalog where
  databases : List Database
  index : Nat
  index_lt : index < databases.length

namespace IndexedCatalog

/-- Only the sample database. -/
def initial : IndexedCatalog := ⟨[Database.sample], 0, Nat.zero_lt_one⟩

/-- The current database. -/
def current (c : IndexedCatalog) : Database := c.databases.get ⟨c.index, c.index_lt⟩

/-- Adds a database at the end and makes it current. -/
def add (c : IndexedCatalog) (d : Database) : IndexedCatalog where
  databases := c.databases ++ [d]
  index := (c.databases ++ [d]).length - 1
  index_lt := by simp

/-- Makes the first database with a name current. -/
def switchTo (c : IndexedCatalog) (name : String) : Except DatabaseError IndexedCatalog :=
  if h : c.databases.findIdx (fun d => d.name = name) < c.databases.length then
    .ok { c with index := c.databases.findIdx fun d => d.name = name, index_lt := h }
  else .error (.unknown name)

end IndexedCatalog

namespace Catalog

variable {c c' : Catalog} {name : String}

/-- The list of the databases with the place of the current one. -/
def indexed (c : Catalog) : IndexedCatalog := ⟨c.databases, c.index, c.index_lt⟩

/-- Splits the list at the current database. -/
def ofIndexed (i : IndexedCatalog) : Catalog :=
  ⟨i.databases.take i.index, i.current, i.databases.drop (i.index + 1)⟩

/-- The two forms hold the same data. -/
def equivIndexed : Catalog ≃ IndexedCatalog where
  toFun := indexed
  invFun := ofIndexed
  left_inv c := by simp [indexed, ofIndexed, IndexedCatalog.current, index, databases]
  right_inv i := by
    obtain ⟨databases, index, hindex⟩ := i
    simp [indexed, ofIndexed, IndexedCatalog.current, Catalog.index, Catalog.databases,
      Nat.le_of_lt hindex]

theorem current_indexed (c : Catalog) : c.indexed.current = c.current := by
  have hcurrent := c.getElem?_index
  rwa [List.getElem?_eq_getElem c.index_lt, Option.some.injEq] at hcurrent

theorem indexed_initial : initial.indexed = .initial := rfl

theorem indexed_add (c : Catalog) (d : Database) : (c.add d).indexed = c.indexed.add d := by
  simp [indexed, IndexedCatalog.add, index, add, databases]

theorem error_of_switchTo {e : DatabaseError} (h : c.switchTo name = .error e) :
    e = .unknown name ∧ ∀ d ∈ c.databases, d.name ≠ name := by
  refine ⟨?_, fun d hd hname => ?_⟩
  · unfold switchTo at h
    split at h <;> cases h
    rfl
  · obtain ⟨c', hc'⟩ := exists_switchTo_iff.mpr ⟨d, hd, hname⟩
    cases h.symm.trans hc'

/-- Switching finds the same database in both forms, or fails on both. -/
theorem indexed_switchTo (c : Catalog) (name : String) :
    (c.switchTo name).map indexed = c.indexed.switchTo name := by
  unfold IndexedCatalog.switchTo
  cases h : c.switchTo name with
  | ok c' =>
    obtain ⟨hlt, hindex⟩ := List.findIdx?_eq_some_iff_findIdx_eq.mp (findIdx?_of_switchTo h)
    have hfound : c.indexed.databases.findIdx (fun d => d.name = name) <
        c.indexed.databases.length := hindex.symm ▸ hlt
    rw [dif_pos hfound]
    exact congrArg Except.ok (IndexedCatalog.ext (databases_of_switchTo h) hindex.symm)
  | error e =>
    obtain ⟨rfl, hnone⟩ := error_of_switchTo h
    have hend : c.indexed.databases.findIdx (fun d => d.name = name) =
        c.indexed.databases.length :=
      List.findIdx_eq_length.mpr fun d hd => decide_eq_false (hnone d hd)
    rw [dif_neg (Nat.not_lt_of_le hend.ge)]
    rfl

/-- What changes a catalog. -/
inductive Change where
  | add (d : Database)
  | switchTo (name : String)

/-- Does a change; a name that is not there changes nothing. -/
def change (c : Catalog) : Change → Catalog
  | .add d => c.add d
  | .switchTo name => (c.switchTo name).toOption.getD c

end Catalog

/-- Does a change; a name that is not there changes nothing. -/
def IndexedCatalog.change (c : IndexedCatalog) : Catalog.Change → IndexedCatalog
  | .add d => c.add d
  | .switchTo name => (c.switchTo name).toOption.getD c

namespace Catalog

theorem indexed_change (c : Catalog) (x : Change) : (c.change x).indexed = c.indexed.change x := by
  cases x with
  | add d => exact c.indexed_add d
  | switchTo name =>
    rw [change, IndexedCatalog.change, ← indexed_switchTo]
    cases c.switchTo name <;> rfl

/-- After any changes, the list and the index are those of the split catalog. -/
theorem indexed_foldl_change (c : Catalog) (xs : List Change) :
    (xs.foldl change c).indexed = xs.foldl IndexedCatalog.change c.indexed := by
  induction xs generalizing c with
  | nil => rfl
  | cons x xs ih => rw [List.foldl_cons, List.foldl_cons, ih, indexed_change]

end Catalog

/-- The change that an operation makes in a folder, if it makes one. -/
def Operation.change? (folder : Folder) : Operation → Option Catalog.Change
  | .switchTo name => some (.switchTo name)
  | o => (o.database? folder).map .add

namespace Workplace

/-- The changes that a run of operations makes. -/
def changes (w : Workplace) : List Operation → List Catalog.Change
  | [] => []
  | o :: os => (o.change? w.folder).toList ++ changes (w.perform o).2 os

theorem catalog_perform (w : Workplace) (o : Operation) :
    (w.perform o).2.catalog = (o.change? w.folder).toList.foldl Catalog.change w.catalog := by
  by_cases hswitch : ∃ name, o = .switchTo name
  · obtain ⟨name, rfl⟩ := hswitch
    rw [perform, switchTo]
    change _ = (w.catalog.switchTo name).toOption.getD w.catalog
    cases w.catalog.switchTo name <;> rfl
  have hchange : o.change? w.folder = (o.database? w.folder).map .add := by
    cases o with
    | switchTo name => exact absurd ⟨name, rfl⟩ hswitch
    | _ => rfl
  rw [hchange]
  cases hd : o.database? w.folder with
  | none => exact catalog_of_database?_eq_none hd fun name h => hswitch ⟨name, h⟩
  | some d => exact catalog_of_brought (perform_eq_brought_iff.mpr hd)

/-- After any run, the list and the index are what the changes of the run make of them. -/
theorem indexed_after (w : Workplace) (os : List Operation) :
    (w.after os).catalog.indexed =
      (w.changes os).foldl IndexedCatalog.change w.catalog.indexed := by
  induction os generalizing w with
  | nil => rfl
  | cons o os ih =>
    have hafter : w.after (o :: os) = (w.perform o).2.after os := rfl
    rw [hafter, ih, catalog_perform, Catalog.indexed_foldl_change, changes, List.foldl_append]

end Workplace

end RelTrace
