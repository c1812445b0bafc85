import RelTrace.Proofs.Catalog.Places
import RelTrace.Trace.Evaluate

/-!
# Runs over a catalog

A catalog is worked on by operations, each of which may fail. An operation either brings a database,
which goes to the end and becomes current, or switches, which only moves the current place, or
leaves the catalog as it is; so a run has added exactly what it has brought.

## Main definitions

* `Workplace`: a catalog with the files around it.
* `Operation`, `Outcome`, `Workplace.perform`: what can be done, and what comes of it.
* `Workplace.after`, `Workplace.outcomes`: the end and the outcomes of a run.
-/

namespace RelTrace

/-- What operations work on. -/
structure Workplace where
  catalog : Catalog
  folder : Folder

/-- What can be done at a workplace. -/
inductive Operation where
  /-- Adds the database of a JSON text. -/
  | add (text : String)
  /-- Adds the database of a file. -/
  | load (path : String)
  | switchTo (name : String)
  | query (text : String)
  /-- Exports the current database into a directory. -/
  | exportTo (directory : String)
  /-- Somebody else changes the files. -/
  | change (folder : Folder)

/-- What comes of an operation. -/
inductive Outcome where
  | brought (d : Database)
  | switched
  | answered (t : Trace)
  | exported (path : String)
  | changed
  | refused (e : DatabaseError)
  | unanswered (e : QueryError)

namespace Outcome

/-- The database that has been brought. -/
def brought? : Outcome → Option Database
  | brought d => some d
  | _ => none

/-- The operation has failed. -/
def failed : Outcome → Bool
  | refused _ | unanswered _ => true
  | _ => false

end Outcome

/-- The database that an operation can bring in a folder. -/
def Operation.database? (folder : Folder) : Operation → Option Database
  | add text => (Database.ofText text).toOption
  | load path => (folder.read path).toOption.bind fun text => (Database.ofText text).toOption
  | _ => none

namespace Workplace

/-- Only the sample database, among some files. -/
def start (folder : Folder) : Workplace := ⟨.initial, folder⟩

/-- Adds a database, unless there was an error. -/
def bring (w : Workplace) : Except DatabaseError Database → Outcome × Workplace
  | .ok d => (.brought d, { w with catalog := w.catalog.add d })
  | .error e => (.refused e, w)

/-- Adds the database of a file. -/
def load (w : Workplace) (path : String) : Outcome × Workplace :=
  let loaded := ((Database.load path : Desk _).run w.folder).value
  { w with folder := loaded.2 }.bring loaded.1

/-- Makes the first database with a name current. -/
def switchTo (w : Workplace) (name : String) : Outcome × Workplace :=
  match w.catalog.switchTo name with
  | .ok catalog => (.switched, { w with catalog })
  | .error e => (.refused e, w)

/-- Runs a query over the current database. -/
def query (w : Workplace) (text : String) : Outcome × Workplace :=
  match (run w.catalog.current.tables.find? text).value with
  | .ok t => (.answered t, w)
  | .error e => (.unanswered e, w)

/-- Says where a database has been written, unless there was an error. -/
def report (w : Workplace) (written : Except DatabaseError String × Folder) : Outcome × Workplace :=
  match written.1 with
  | .ok path => (.exported path, { w with folder := written.2 })
  | .error e => (.refused e, { w with folder := written.2 })

/-- Exports the current database into a directory. -/
def exportTo (w : Workplace) (directory : String) : Outcome × Workplace :=
  w.report ((Database.exportTo directory w.catalog.current : Desk _).run w.folder).value

/-- Does one operation. -/
def perform (w : Workplace) : Operation → Outcome × Workplace
  | .add text => w.bring (Database.ofText text)
  | .load path => w.load path
  | .switchTo name => w.switchTo name
  | .query text => w.query text
  | .exportTo directory => w.exportTo directory
  | .change folder => (.changed, { w with folder })

/-- The workplace after some operations. -/
def after (w : Workplace) (os : List Operation) : Workplace :=
  os.foldl (fun w o => (w.perform o).2) w

/-- What comes of some operations in turn. -/
def outcomes (w : Workplace) : List Operation → List Outcome
  | [] => []
  | o :: os => (w.perform o).1 :: outcomes (w.perform o).2 os

end Workplace

/-- Loading reads the file and leaves the files as they are. -/
theorem Database.run_load (folder : Folder) (path : String) :
    ((Database.load path : Desk _).run folder).value =
      (match folder.read path with
        | .ok text => ofText text
        | .error cause => .error (.unreadable path cause), folder) := by
  have hread : ((Host.readFile path : Desk _).run folder) = pure (folder.read path, folder) := rfl
  rw [Database.load, StateT.run_bind, hread, Logged.value_bind, Logged.value_pure]
  cases folder.read path with
  | error cause => rfl
  | ok text =>
    dsimp only
    cases ofText text <;> rfl

namespace Workplace

variable {w : Workplace} {o : Operation} {d : Database}

theorem load_eq_bring (w : Workplace) (path : String) :
    w.load path = w.bring (match w.folder.read path with
      | .ok text => Database.ofText text
      | .error cause => .error (.unreadable path cause)) := by
  rw [load, Database.run_load]

/-- An operation brings a database, or it switches, or the catalog stays as it is. -/
inductive Did (w : Workplace) (o : Operation) : Outcome → Catalog → Prop
  | brought {d : Database} (hd : o.database? w.folder = some d) :
      Did w o (.brought d) (w.catalog.add d)
  | switched {name : String} {c : Catalog} (ho : o = .switchTo name)
      (hc : w.catalog.switchTo name = .ok c) : Did w o .switched c
  | kept {r : Outcome} (ho : o.database? w.folder = none) (hbrought : r.brought? = none)
      (hswitched : r ≠ .switched) : Did w o r w.catalog

theorem did_bring {x : Except DatabaseError Database} (h : o.database? w.folder = x.toOption) :
    Did w o (w.bring x).1 (w.bring x).2.catalog := by
  cases x with
  | ok d => exact .brought h
  | error e => exact .kept h rfl nofun

theorem did_report (h : o.database? w.folder = none)
    (written : Except DatabaseError String × Folder) :
    Did w o (w.report written).1 (w.report written).2.catalog := by
  unfold report
  split <;> exact .kept h rfl nofun

theorem did_perform (w : Workplace) (o : Operation) :
    Did w o (w.perform o).1 (w.perform o).2.catalog := by
  cases o with
  | add text => exact did_bring rfl
  | load path =>
    rw [perform, load_eq_bring]
    refine did_bring ?_
    rw [Operation.database?]
    cases w.folder.read path <;> rfl
  | switchTo name =>
    rw [perform, switchTo]
    cases hswitch : w.catalog.switchTo name with
    | ok c => exact .switched rfl hswitch
    | error e => exact .kept rfl rfl nofun
  | query text =>
    rw [perform, query]
    split <;> exact .kept rfl rfl nofun
  | exportTo directory =>
    rw [perform, exportTo]
    exact did_report rfl _
  | change folder => exact .kept rfl rfl nofun

theorem databases_perform (w : Workplace) (o : Operation) :
    (w.perform o).2.catalog.databases =
      w.catalog.databases ++ (w.perform o).1.brought?.toList := by
  have h := did_perform w o
  generalize (w.perform o).1 = r, (w.perform o).2.catalog = c at h ⊢
  cases h with
  | brought => rfl
  | switched _ hc =>
    rw [Catalog.databases_of_switchTo hc]
    exact (List.append_nil _).symm
  | kept _ hbrought => rw [hbrought, Option.toList_none, List.append_nil]

theorem databases_after (w : Workplace) (os : List Operation) :
    (w.after os).catalog.databases =
      w.catalog.databases ++ (w.outcomes os).filterMap Outcome.brought? := by
  induction os generalizing w with
  | nil => exact (List.append_nil _).symm
  | cons o os ih =>
    rw [after, List.foldl_cons, ← after, ih, databases_perform, outcomes, List.append_assoc,
      List.filterMap_cons]
    cases (w.perform o).1.brought? <;> rfl

theorem perform_eq_brought_iff :
    (w.perform o).1 = .brought d ↔ o.database? w.folder = some d := by
  have h := did_perform w o
  generalize (w.perform o).1 = r, (w.perform o).2.catalog = c at h ⊢
  cases h with
  | brought hd => rw [hd, Outcome.brought.injEq, Option.some.injEq]
  | switched ho =>
    subst ho
    exact ⟨nofun, nofun⟩
  | kept ho hbrought =>
    rw [ho]
    refine ⟨?_, nofun⟩
    rintro rfl
    cases hbrought

theorem catalog_of_brought (h : (w.perform o).1 = .brought d) :
    (w.perform o).2.catalog = w.catalog.add d := by
  have hdid := did_perform w o
  rw [h] at hdid
  generalize (w.perform o).2.catalog = c at hdid
  cases hdid with
  | brought => rfl
  | kept _ hbrought => cases hbrought

theorem catalog_of_failed (h : (w.perform o).1.failed) : (w.perform o).2.catalog = w.catalog := by
  have hdid := did_perform w o
  generalize (w.perform o).1 = r, (w.perform o).2.catalog = c at hdid h
  cases hdid with
  | brought | switched => cases h
  | kept => rfl

/-- Only a database that is brought and a switch change the catalog. -/
theorem catalog_of_database?_eq_none (hdatabase : o.database? w.folder = none)
    (hswitch : ∀ name, o ≠ .switchTo name) : (w.perform o).2.catalog = w.catalog := by
  have hdid := did_perform w o
  generalize (w.perform o).1 = r, (w.perform o).2.catalog = c at hdid
  cases hdid with
  | brought hd => cases hdatabase.symm.trans hd
  | switched ho => exact absurd ho (hswitch _)
  | kept => rfl

theorem switchTo_eq_switched_iff {name : String} :
    (w.perform (.switchTo name)).1 = .switched ↔
      w.catalog.switchTo name = .ok (w.perform (.switchTo name)).2.catalog := by
  rw [perform, switchTo]
  cases w.catalog.switchTo name with
  | ok c => exact ⟨fun _ => rfl, fun _ => rfl⟩
  | error e => exact ⟨nofun, nofun⟩

theorem exists_of_switched {name : String} (h : ∃ d ∈ w.catalog.databases, d.name = name) :
    (w.perform (.switchTo name)).1 = .switched := by
  obtain ⟨c, hc⟩ := Catalog.exists_switchTo_iff.mpr h
  rw [perform, switchTo, hc]

/-- The current database is one of the catalog, and the next operation does what it should. -/
structure Sound (w : Workplace) : Prop where
  index_lt : w.catalog.index < w.catalog.databases.length
  getElem?_index : w.catalog.databases[w.catalog.index]? = some w.catalog.current
  failed : ∀ o, (w.perform o).1.failed → (w.perform o).2.catalog = w.catalog
  query : ∀ text, (w.perform (.query text)).2.catalog = w.catalog
  exportTo : ∀ directory, (w.perform (.exportTo directory)).2.catalog = w.catalog
  brought_iff : ∀ o d, (w.perform o).1 = .brought d ↔ o.database? w.folder = some d
  brought : ∀ o d, (w.perform o).1 = .brought d →
    (w.perform o).2.catalog.databases = w.catalog.databases ++ [d] ∧
      (w.perform o).2.catalog.current = d ∧
      (w.perform o).2.catalog.index = w.catalog.databases.length
  switched_iff : ∀ name, (w.perform (.switchTo name)).1 = .switched ↔
    ∃ d ∈ w.catalog.databases, d.name = name
  switched : ∀ name, (w.perform (.switchTo name)).1 = .switched →
    (w.perform (.switchTo name)).2.catalog.databases = w.catalog.databases ∧
      w.catalog.databases.find? (fun d => d.name = name) =
        some (w.perform (.switchTo name)).2.catalog.current ∧
      w.catalog.databases.findIdx? (fun d => d.name = name) =
        some (w.perform (.switchTo name)).2.catalog.index

theorem sound (w : Workplace) : w.Sound where
  index_lt := w.catalog.index_lt
  getElem?_index := w.catalog.getElem?_index
  failed _ h := catalog_of_failed h
  query _ := catalog_of_database?_eq_none rfl nofun
  exportTo _ := catalog_of_database?_eq_none rfl nofun
  brought_iff _ _ := perform_eq_brought_iff
  brought o d h := by
    rw [catalog_of_brought h]
    exact ⟨rfl, rfl, rfl⟩
  switched_iff name := by
    refine ⟨fun h => ?_, exists_of_switched⟩
    exact Catalog.exists_switchTo_iff.mp ⟨_, switchTo_eq_switched_iff.mp h⟩
  switched name h := by
    have hswitch := switchTo_eq_switched_iff.mp h
    exact ⟨Catalog.databases_of_switchTo hswitch, Catalog.find?_of_switchTo hswitch,
      Catalog.findIdx?_of_switchTo hswitch⟩

/-- After any run the databases are the sample and what the run has brought, in this order and for
as long as the run goes on, and one of them is current. Whatever is done next changes the catalog
only by adding a database or by switching. -/
theorem runs_add_what_they_bring (folder : Folder) (os : List Operation) :
    ((start folder).after os).catalog.databases =
        Database.sample :: ((start folder).outcomes os).filterMap Outcome.brought? ∧
      (∀ more, ((start folder).after os).catalog.databases <+:
        ((start folder).after (os ++ more)).catalog.databases) ∧
      ((start folder).after os).Sound := by
  refine ⟨databases_after (start folder) os, fun more => ?_, sound _⟩
  have hafter : (start folder).after (os ++ more) = ((start folder).after os).after more :=
    List.foldl_append
  rw [hafter, databases_after ((start folder).after os) more]
  exact List.prefix_append _ _

example :
    (((start .empty).after [.add "\x7b\"name\":\"Games\",\"tables\":\x7b\x7d\x7d", .add "\x7b",
      .load "games.json", .switchTo "Nope"]).catalog.databases.map Database.name) =
      ["University", "Games"] := by
  decide +kernel

end Workplace

end RelTrace
