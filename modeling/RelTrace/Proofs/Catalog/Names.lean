import RelTrace.Proofs.Command.Opening
import RelTrace.Proofs.Database.RoundTrip

/-!
# Databases with the same name

Databases are switched to by name, and the listing marks the current one by its name. Nothing keeps
two loaded databases from having the same name: then the first of them is switched to, and both are
marked. Each database can be reached by its name exactly if no two have the same one.

## Main definitions

* `Command.isMarked`: a database is marked in the listing.
-/

namespace RelTrace

namespace Catalog

variable {c c' : Catalog} {i : Nat} {d : Database}

theorem mem_take_of_getElem? {k : Nat} (h : c.databases[i]? = some d) (hlt : i < k) :
    d ∈ c.databases.take k :=
  List.mem_of_getElem? (by rw [List.getElem?_take_of_lt hlt, h])

/-- A database is found under its name, or one before it with the same name. -/
theorem index_of_switchTo (h : c.databases[i]? = some d) (hswitch : c.switchTo d.name = .ok c') :
    c'.index ≤ i ∧ (c'.index = i ↔ ∀ e ∈ c.databases.take i, e.name ≠ d.name) := by
  obtain ⟨hdatabases, hname, hbefore⟩ := switchTo_eq_ok_iff.mp hswitch
  have htake : c.databases.take c'.index = c'.before := hdatabases ▸ List.take_left
  have hcurrent : c.databases[c'.index]? = some c'.current := hdatabases ▸ c'.getElem?_index
  have hle : c'.index ≤ i := by
    refine Nat.not_lt.mp fun hlt => hbefore d ?_ rfl
    rw [← htake]
    exact mem_take_of_getElem? h hlt
  refine ⟨hle, fun hindex => ?_, fun hnone => Nat.le_antisymm hle (Nat.not_lt.mp fun hlt => ?_)⟩
  · rw [← hindex, htake]
    exact hbefore
  · exact hnone c'.current (mem_take_of_getElem? hcurrent hlt) hname

theorem exists_switchTo_of_getElem? (h : c.databases[i]? = some d) :
    ∃ c', c.switchTo d.name = .ok c' :=
  exists_switchTo_iff.mpr ⟨d, List.mem_of_getElem? h, rfl⟩

/-- All databases can be reached by their names exactly if no name is repeated. -/
theorem index_switchTo_iff_nodup (c : Catalog) :
    (∀ i d, c.databases[i]? = some d → ∃ c', c.switchTo d.name = .ok c' ∧ c'.index = i) ↔
      (c.databases.map Database.name).Nodup := by
  rw [List.Nodup, List.pairwise_map, List.pairwise_iff_getElem]
  constructor
  · intro h i j hi hj hlt
    have hget := List.getElem?_eq_getElem hj
    obtain ⟨c', hswitch, hindex⟩ := h j _ hget
    exact (index_of_switchTo hget hswitch).2.mp hindex _
      (mem_take_of_getElem? (List.getElem?_eq_getElem hi) hlt)
  · intro h i d hd
    obtain ⟨c', hswitch⟩ := exists_switchTo_of_getElem? hd
    refine ⟨c', hswitch, (index_of_switchTo hd hswitch).2.mpr fun e he => ?_⟩
    obtain ⟨hi, rfl⟩ := List.getElem?_eq_some_iff.mp hd
    obtain ⟨j, hj, rfl⟩ := List.mem_take_iff_getElem.mp he
    exact h j i (by omega) hi (by omega)

end Catalog

namespace Command

variable {c : Catalog} {d : Database}

/-- The entry of a database in the listing has the mark of the current database. -/
def isMarked (c : Catalog) (d : Database) : Bool :=
  (listingEntry c.current.name d).toList.head? = some '*'

theorem isMarked_iff : isMarked c d ↔ d.name = c.current.name := by
  unfold isMarked listingEntry
  split
  · simp_all
  · simp_all

theorem countP_isMarked (c : Catalog) :
    c.databases.countP (isMarked c) = (c.databases.map Database.name).count c.current.name := by
  rw [List.count, List.countP_map]
  exact List.countP_congr fun d _ => isMarked_iff.trans beq_iff_eq.symm

/-- One database is marked exactly if no other one has the name of the current database. -/
theorem countP_isMarked_eq_one_iff (c : Catalog) :
    c.databases.countP (isMarked c) = 1 ↔ ∀ d ∈ c.before ++ c.after, d.name ≠ c.current.name := by
  have hcurrent : isMarked c c.current := isMarked_iff.mpr rfl
  have hcount : c.databases.countP (isMarked c) =
      (c.before ++ c.after).countP (isMarked c) + 1 := by
    rw [Catalog.databases, List.countP_append, List.countP_cons_of_pos hcurrent, List.countP_append,
      Nat.add_assoc]
  have hnone : (c.before ++ c.after).countP (isMarked c) = 0 ↔
      ∀ d ∈ c.before ++ c.after, ¬isMarked c d := List.countP_eq_zero
  simp only [isMarked_iff] at hnone
  rw [hcount, ← hnone]
  omega

section

variable {folder : Folder} {printed : String}

/-- The wanted database is the first one with its name among the sample and the loaded ones. -/
theorem runOn_openCatalog {o : Options} {ds : List Database} {name : String}
    (hfiles : List.Forall₂ (Holds folder) o.databases ds) (huse : o.useName? = some name)
    (hname : ∃ d ∈ Database.sample :: ds, d.name = name) :
    ∃ c, runOn folder printed (openCatalog o) = ((.ok c, printed), folder) ∧
      c.databases = Database.sample :: ds ∧
      (Database.sample :: ds).find? (fun d => d.name = name) = some c.current := by
  have hdatabases : (ds.foldl Catalog.add .initial).databases = Database.sample :: ds :=
    databases_foldl_add ds .initial
  rw [← hdatabases] at hname ⊢
  obtain ⟨c, hswitch⟩ := Catalog.exists_switchTo_iff.mpr hname
  refine ⟨c, ?_, Catalog.databases_of_switchTo hswitch, Catalog.find?_of_switchTo hswitch⟩
  have hopens : Opens folder o c := ⟨ds, hfiles, by simpa only [huse] using hswitch⟩
  rw [isQuiet_openCatalog, opens_iff.mp hopens]

end

end Command

/-- Switching to the name of a database leads to the first one with this name: to the database
itself if none before it has its name, and so for all databases only if no name is repeated. The
current database is marked, and it is the only one exactly if no other one has its name. The command
uses the first database with the wanted name among the sample and the loaded ones. -/
theorem names_lead_to_first_namesakes (c : Catalog) (folder : Folder) :
    (∀ (i : Nat) (d : Database), c.databases[i]? = some d →
      ∃ c', c.switchTo d.name = .ok c' ∧ c'.databases = c.databases ∧
        c'.current.name = d.name ∧ c'.index ≤ i ∧
        (c'.index = i ↔ ∀ e ∈ c.databases.take i, e.name ≠ d.name)) ∧
    (((∀ i d, c.databases[i]? = some d → ∃ c', c.switchTo d.name = .ok c' ∧ c'.index = i) ↔
        (c.databases.map Database.name).Nodup) ∧
      Command.isMarked c c.current ∧
      (c.databases.countP (Command.isMarked c) = 1 ↔
        ∀ d ∈ c.before ++ c.after, d.name ≠ c.current.name)) ∧
    ∀ (o : Options) (ds : List Database) (name : String),
      List.Forall₂ (Command.Holds folder) o.databases ds → o.useName? = some name →
      (∃ d ∈ Database.sample :: ds, d.name = name) →
      ∃ c, Command.runOn folder "" (Command.openCatalog o) = ((.ok c, ""), folder) ∧
        c.databases = Database.sample :: ds ∧
        (Database.sample :: ds).find? (fun d => d.name = name) = some c.current := by
  refine ⟨fun i d h => ?_, ⟨?_, ?_, ?_⟩, ?_⟩
  · obtain ⟨c', hswitch⟩ := Catalog.exists_switchTo_of_getElem? h
    exact ⟨c', hswitch, Catalog.databases_of_switchTo hswitch, Catalog.name_of_switchTo hswitch,
      Catalog.index_of_switchTo h hswitch⟩
  · exact c.index_switchTo_iff_nodup
  · exact Command.isMarked_iff.mpr rfl
  · exact Command.countP_isMarked_eq_one_iff c
  · exact fun o ds name hfiles huse hname => Command.runOn_openCatalog hfiles huse hname

/-- A database with the name of the sample one. -/
def namesake : Database where
  name := "University"
  description? := none
  tables := .ofList [("T", [.ofList [("x", .text "a")]])]
  examples := []
  diagram? := none

/-- A folder with its text. -/
def namesakeFolder : Folder := .ofList [("u.json", namesake.toText)]

/-- What asks for it. -/
def namesakeOptions : Options where
  query? := some "T"
  databases := ["u.json"]
  useName? := some "University"
  exampleNumber? := none
  stepNumber? := none
  graph? := none
  json := false
  tree := false
  list := false
  schema := false
  exportTo? := none
  verbosity := 0

theorem names_lead_to_first_namesakes_university :
    (Catalog.initial.add namesake).databases[1]? = some namesake ∧
      (∃ c', (Catalog.initial.add namesake).switchTo namesake.name = .ok c' ∧ c'.index ≤ 1) ∧
      List.Forall₂ (Command.Holds namesakeFolder) namesakeOptions.databases [namesake] ∧
      namesakeOptions.useName? = some namesake.name ∧
      (∃ d ∈ [Database.sample, namesake], d.name = namesake.name) ∧
      ∃ c, Command.runOn namesakeFolder "" (Command.openCatalog namesakeOptions) =
          ((.ok c, ""), namesakeFolder) ∧
        c.current = Database.sample := by
  obtain ⟨hswitch, -, huse⟩ :=
    names_lead_to_first_namesakes (Catalog.initial.add namesake) namesakeFolder
  have hget : (Catalog.initial.add namesake).databases[1]? = some namesake := rfl
  obtain ⟨c', hc', -, -, hle, -⟩ := hswitch 1 namesake hget
  have hexact : ∀ v ∈ namesake.values, v.toJson.Exact := by
    have hvalues : namesake.values = [.text "a"] := by decide +kernel
    rw [hvalues]
    rintro v (- | ⟨-, ⟨⟩⟩)
    trivial
  have hholds : Command.Holds namesakeFolder "u.json" namesake :=
    ⟨namesake.toText, by decide +kernel, Database.ofText_toText (by decide +kernel) hexact⟩
  have hfiles : List.Forall₂ (Command.Holds namesakeFolder) namesakeOptions.databases [namesake] :=
    .cons hholds .nil
  have hname : ∃ d ∈ [Database.sample, namesake], d.name = namesake.name :=
    ⟨namesake, List.mem_cons_of_mem _ List.mem_cons_self, rfl⟩
  obtain ⟨c, hc, -, hcurrent⟩ := huse namesakeOptions [namesake] namesake.name hfiles rfl hname
  exact ⟨hget, ⟨c', hc', hle⟩, hfiles, rfl, hname, c, hc, (Option.some.inj hcurrent).symm⟩

/-- The catalog after its text has been added. -/
def namesakeCatalog : Catalog := ((Workplace.start .empty).after [.add namesake.toText]).catalog

/-- Of two databases with the same name the second one is not found: the listing marks both, and a
query reads the first one, which does not have its table. -/
theorem second_namesake_is_hidden :
    (¬∀ i d, namesakeCatalog.databases[i]? = some d →
        ∃ c, namesakeCatalog.switchTo d.name = .ok c ∧ c.index = i) ∧
      namesakeCatalog.databases.countP (Command.isMarked namesakeCatalog) = 2 ∧
      (Command.run namesakeFolder ["-d", "u.json", "T"]).value.1.output =
        "Step 1 of 1: Access base relation: T\n  ⟦T⟧\n| x |\n| - |\n| a |\n\n" ∧
      (Command.run namesakeFolder ["-d", "u.json", "--use", "University", "T"]).value.1.output =
        "Step 1 of 1: Access base relation: T\n  ⟦T⟧\nNo data (empty result set)\n\n" := by
  have hnames : namesakeCatalog.databases.map Database.name = ["University", "University"] := by
    decide +kernel
  have hcurrent : namesakeCatalog.current.name = "University" := by decide +kernel
  refine ⟨fun h => ?_, ?_, by decide +kernel, by decide +kernel⟩
  · rw [Catalog.index_switchTo_iff_nodup, hnames] at h
    simp at h
  · rw [Command.countP_isMarked, hnames, hcurrent]
    rfl

end RelTrace
