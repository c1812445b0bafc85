import Mathlib.Data.List.TakeDrop
import Mathlib.Data.List.TakeWhile
import RelTrace.Catalog

/-!
# Places in a catalog

The current database has a place among all databases. Switching to a name moves it to the first
place where that name stands and keeps the databases as they are.

## Main definitions

* `Catalog.index`: the place of the current database.
-/

namespace RelTrace.Catalog

variable {c c' : Catalog} {name : String} {d : Database}

/-- The place of the current database. -/
def index (c : Catalog) : Nat := c.before.length

theorem index_lt (c : Catalog) : c.index < c.databases.length := by
  simp [index, databases]

@[simp] theorem getElem?_index (c : Catalog) : c.databases[c.index]? = some c.current := by
  simp [index, databases]

@[simp] theorem databases_add (c : Catalog) (d : Database) :
    (c.add d).databases = c.databases ++ [d] := rfl

/-- Switching finds the first database with the name. -/
theorem switchTo_eq_ok_iff :
    c.switchTo name = .ok c' ↔
      c'.databases = c.databases ∧ c'.current.name = name ∧ ∀ d ∈ c'.before, d.name ≠ name := by
  unfold switchTo
  rw [List.span_eq_takeWhile_dropWhile]
  constructor
  · intro h
    split at h
    · next before d after hspan =>
      obtain ⟨rfl, hdrop⟩ := Prod.mk.inj hspan
      cases h
      refine ⟨?_, ?_, fun e he => ?_⟩
      · rw [databases, ← hdrop, List.takeWhile_append_dropWhile]
      · have hhead := List.head?_dropWhile_not (fun d : Database => d.name ≠ name) c.databases
        rw [hdrop] at hhead
        simpa using hhead
      · simpa using List.all_eq_true.mp List.all_takeWhile e he
    · cases h
  · rintro ⟨hdatabases, hname, hbefore⟩
    have hpos : ∀ d ∈ c'.before, decide (d.name ≠ name) = true := by simpa using hbefore
    rw [← hdatabases, databases, List.takeWhile_append_of_pos hpos,
      List.dropWhile_append_of_pos hpos]
    simp [hname]

theorem databases_of_switchTo (h : c.switchTo name = .ok c') : c'.databases = c.databases :=
  (switchTo_eq_ok_iff.mp h).1

theorem name_of_switchTo (h : c.switchTo name = .ok c') : c'.current.name = name :=
  (switchTo_eq_ok_iff.mp h).2.1

theorem findIdx?_of_switchTo (h : c.switchTo name = .ok c') :
    c.databases.findIdx? (fun d => d.name = name) = some c'.index := by
  obtain ⟨hdatabases, hname, hbefore⟩ := switchTo_eq_ok_iff.mp h
  have hnone : c'.before.findIdx? (fun d => d.name = name) = none :=
    List.findIdx?_eq_none_iff.mpr fun d hd => decide_eq_false (hbefore d hd)
  rw [← hdatabases, databases, List.findIdx?_append, hnone, List.findIdx?_cons]
  simp [hname, index]

theorem find?_of_switchTo (h : c.switchTo name = .ok c') :
    c.databases.find? (fun d => d.name = name) = some c'.current := by
  obtain ⟨hdatabases, hname, hbefore⟩ := switchTo_eq_ok_iff.mp h
  have hnone : c'.before.find? (fun d => d.name = name) = none :=
    List.find?_eq_none.mpr fun d hd => by simpa using hbefore d hd
  rw [← hdatabases, databases, List.find?_append, hnone, List.find?_cons]
  simp [hname]

theorem exists_switchTo_iff :
    (∃ c', c.switchTo name = .ok c') ↔ ∃ d ∈ c.databases, d.name = name := by
  constructor
  · rintro ⟨c', h⟩
    obtain ⟨hdatabases, hname, -⟩ := switchTo_eq_ok_iff.mp h
    exact ⟨c'.current, hdatabases ▸ List.mem_append_right _ List.mem_cons_self, hname⟩
  · rintro ⟨d, hd, hname⟩
    unfold switchTo
    rw [List.span_eq_takeWhile_dropWhile]
    cases hdrop : c.databases.dropWhile (fun d => d.name ≠ name) with
    | nil =>
      have hall := List.dropWhile_eq_nil_iff.mp hdrop d hd
      simp [hname] at hall
    | cons e after => exact ⟨_, rfl⟩

end RelTrace.Catalog
