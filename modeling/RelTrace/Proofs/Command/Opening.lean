import Mathlib.Data.List.Forall2
import RelTrace.Proofs.Catalog.Runs
import RelTrace.Proofs.Command.Session

/-!
# Opening the catalog

The command loads the files that it is given, one after another, and then makes the wanted database
current. Nothing is printed or written meanwhile.

## Main definitions

* `Command.Holds`: a file holds the text of a database.
* `Command.Opens`: the catalog that the command comes to.
-/

namespace RelTrace

namespace Command

variable {folder : Folder} {path : String} {c c' : Catalog} {o : Options}

/-- The file holds the text of the database. -/
def Holds (folder : Folder) (path : String) (d : Database) : Prop :=
  ∃ text, folder.read path = .ok text ∧ Database.ofText text = .ok d

/-- All files hold databases, which are loaded, and the wanted one is found among them. -/
def Opens (folder : Folder) (o : Options) (c : Catalog) : Prop :=
  ∃ ds, List.Forall₂ (Holds folder) o.databases ds ∧
    match o.useName? with
    | some name => (ds.foldl Catalog.add .initial).switchTo name = .ok c
    | none => ds.foldl Catalog.add .initial = c

/-- The database in a file, as it is loaded. -/
def databaseIn (folder : Folder) (path : String) : Except DatabaseError Database :=
  match folder.read path with
  | .ok text => Database.ofText text
  | .error cause => .error (.unreadable path cause)

theorem holds_iff {d : Database} : Holds folder path d ↔ databaseIn folder path = .ok d := by
  unfold Holds databaseIn
  cases folder.read path with
  | ok text => exact ⟨fun ⟨_, htext, hd⟩ => Except.ok.inj htext ▸ hd, fun hd => ⟨text, rfl, hd⟩⟩
  | error cause => exact ⟨nofun, nofun⟩

theorem runOn_onHost_load (folder : Folder) (printed path : String) :
    runOn folder printed (onHost (Database.load path)) =
      ((.ok (databaseIn folder path), printed), folder) := by
  rw [runOn_onHost, Database.run_load]
  rfl

theorem isQuiet_onHost_load (folder : Folder) (path : String) :
    IsQuiet folder (onHost (Database.load path)) :=
  isQuiet_of_runOn fun printed => runOn_onHost_load folder printed path

theorem isQuiet_load (folder : Folder) (c : Catalog) (path : String) :
    IsQuiet folder (load c path) :=
  (isQuiet_onHost_load folder path).bind fun r =>
    (isQuiet_take _ r).bind fun d => isQuiet_pure (c.add d)

theorem result_load_eq_ok_iff :
    result folder (load c path) = .ok c' ↔ ∃ d, Holds folder path d ∧ c.add d = c' := by
  have hfile : result folder (onHost (Database.load path)) = .ok (databaseIn folder path) :=
    congrArg (fun r => r.1.1) (runOn_onHost_load folder "" path)
  unfold load
  rw [(isQuiet_onHost_load folder path).result_bind_eq_ok_iff, hfile]
  simp only [Except.ok.injEq, exists_eq_left', holds_iff]
  rw [(isQuiet_take _ _).result_bind_eq_ok_iff]
  simp only [result_take_eq_ok_iff]
  exact exists_congr fun d => and_congr_right fun _ => ⟨Except.ok.inj, congrArg Except.ok⟩

theorem isQuiet_foldlM_load (folder : Folder) (paths : List String) (c : Catalog) :
    IsQuiet folder (paths.foldlM load c) := by
  induction paths generalizing c with
  | nil => exact isQuiet_pure c
  | cons path paths ih =>
    rw [List.foldlM_cons]
    exact (isQuiet_load folder c path).bind ih

theorem result_foldlM_load_eq_ok_iff {paths : List String} :
    result folder (paths.foldlM load c) = .ok c' ↔
      ∃ ds, List.Forall₂ (Holds folder) paths ds ∧ ds.foldl Catalog.add c = c' := by
  induction paths generalizing c with
  | nil =>
    constructor
    · intro h
      exact ⟨[], .nil, Except.ok.inj h⟩
    · rintro ⟨ds, hds, rfl⟩
      cases hds
      rfl
  | cons path paths ih =>
    rw [List.foldlM_cons, (isQuiet_load folder c path).result_bind_eq_ok_iff]
    simp only [result_load_eq_ok_iff, ih]
    constructor
    · rintro ⟨_, ⟨d, hd, rfl⟩, ds, hds, rfl⟩
      exact ⟨d :: ds, .cons hd hds, rfl⟩
    · rintro ⟨ds, hds, rfl⟩
      cases hds with
      | cons hd hds => exact ⟨_, ⟨_, hd, rfl⟩, _, hds, rfl⟩

theorem databases_foldl_add (ds : List Database) (c : Catalog) :
    (ds.foldl Catalog.add c).databases = c.databases ++ ds := by
  induction ds generalizing c with
  | nil => exact (List.append_nil _).symm
  | cons d ds ih => rw [List.foldl_cons, ih, Catalog.databases_add, List.append_assoc]; rfl

theorem isQuiet_openCatalog (folder : Folder) (o : Options) : IsQuiet folder (openCatalog o) := by
  refine (isQuiet_foldlM_load folder o.databases .initial).bind fun c => ?_
  split
  · exact isQuiet_take _ _
  · exact isQuiet_pure c

theorem opens_iff : Opens folder o c ↔ result folder (openCatalog o) = .ok c := by
  unfold openCatalog Opens
  rw [(isQuiet_foldlM_load folder o.databases .initial).result_bind_eq_ok_iff]
  simp only [result_foldlM_load_eq_ok_iff, exists_exists_and_eq_and]
  refine exists_congr fun ds => and_congr_right fun _ => ?_
  cases o.useName? with
  | some name => exact result_take_eq_ok_iff.symm
  | none => exact ⟨fun h => h ▸ rfl, fun h => Except.ok.inj h⟩

end Command

end RelTrace
