import RelTrace.Database.Schema
import RelTrace.Proofs.Keyed
import RelTrace.Proofs.Text.Lines

/-!
# What schemas show

A derived schema is written from the shape of the tables: the names of those that are not empty,
and the names and kinds of the attributes in their first rows. Where names contain no white space
the shape can be read from the schema again. The lines of attributes are indented deeper than the
brace that ends them, a space stands behind each name, and what it is followed by depends on the
name alone.

## Main definitions

* `Value.Kind`: the types that a schema knows.
* `schemaShape`: what a schema shows of some tables.
-/

namespace RelTrace

/-- The types that a schema knows. -/
inductive Value.Kind where
  | bool
  | number
  | text
deriving DecidableEq

/-- The type of a value. -/
def Value.kind : Value → Kind
  | bool _ => .bool
  | number _ => .number
  | text _ => .text

/-- How a schema calls a type. -/
def Value.Kind.name : Kind → String
  | bool => "boolean"
  | number => "int"
  | text => "string"

theorem Value.typeName_eq (v : Value) : v.typeName = v.kind.name := by
  cases v <;> rfl

theorem Value.Kind.name_inj {k l : Kind} : k.name = l.name ↔ k = l := by
  refine ⟨fun h => ?_, congrArg name⟩
  cases k <;> cases l <;> first | rfl | exact absurd h (by decide)

/-- A table with its attributes and their types. -/
abbrev TableShape := String × List (String × Value.Kind)

/-- The shape of the first row of a table, if there is one. -/
def tableShape? (name : String) (rows : Relation) : Option TableShape :=
  rows.head?.map fun row => (name, row.entries.map fun (column, v) => (column, v.kind))

/-- The shapes of the tables that are not empty, in order. -/
def schemaShape (tables : Keyed Relation) : List TableShape :=
  tables.entries.filterMap fun (name, rows) => tableShape? name rows

/-- The text contains no white space. -/
def IsUnspaced (s : String) : Prop := ∀ c ∈ s.toList, Text.isBlank c = false

/-- Neither the names of the tables nor those of attributes contain white space. -/
def NamesUnspaced (tables : Keyed Relation) : Prop :=
  ∀ table ∈ tables.entries,
    IsUnspaced table.1 ∧ ∀ row ∈ table.2, ∀ name ∈ row.names, IsUnspaced name

instance : DecidablePred IsUnspaced := fun s =>
  List.decidableBAll _ s.toList

instance : DecidablePred NamesUnspaced := fun tables =>
  inferInstanceAs (Decidable (∀ table ∈ tables.entries, _ ∧ ∀ row ∈ table.2, _))

theorem IsUnspaced.run {s : String} (h : IsUnspaced s) : ∀ c ∈ s.toList, !Text.isBlank c := by
  intro c hc
  rw [h c hc]
  rfl

theorem IsUnspaced.newline_notMem {s : String} (h : IsUnspaced s) : '\n' ∉ s.toList :=
  fun hmem => absurd (h '\n' hmem) (by decide)

theorem isUnspaced_name {k : Value.Kind} : IsUnspaced k.name := by
  cases k <;> decide

namespace TableShape

/-- The line of an attribute without its end. -/
def attributeEntry (a : String × Value.Kind) : String :=
  "        " ++ a.2.name ++ " " ++ a.1 ++ keyMark a.1

/-- The lines of a table. -/
def lines (t : TableShape) : List String :=
  ("    " ++ t.1 ++ " \x7b") :: (t.2.map attributeEntry ++ ["    \x7d"])

/-- The names of a table and of its attributes contain no white space. -/
def Unspaced (t : TableShape) : Prop := IsUnspaced t.1 ∧ ∀ a ∈ t.2, IsUnspaced a.1

variable {a b : String × Value.Kind} {as bs : List (String × Value.Kind)} {t u : TableShape}

/-- What marks a key is set off from the name. -/
theorem head?_keyMark (name : String) :
    ∀ c ∈ (keyMark name).toList.head?, (!Text.isBlank c) = false := by
  have hblank : (keyMark name).toList.head?.all Text.isBlank := by
    unfold keyMark
    split
    · decide
    · split <;> decide
  intro c hc
  rw [Option.mem_def.mp hc, Option.all_some] at hblank
  rw [hblank]
  rfl

theorem attributeEntry_inj (ha : IsUnspaced a.1) (hb : IsUnspaced b.1)
    (h : attributeEntry a = attributeEntry b) : a = b := by
  have hkinds : a.2.name.toList ++ ' ' :: (a.1 ++ keyMark a.1).toList =
      b.2.name.toList ++ ' ' :: (b.1 ++ keyMark b.1).toList := by
    simpa [attributeEntry] using congrArg String.toList h
  obtain ⟨hkind, hnames⟩ := Text.append_inj_of_runs isUnspaced_name.run isUnspaced_name.run
    (by simp; rfl) (by simp; rfl) hkinds
  have hmarks : a.1.toList ++ (keyMark a.1).toList = b.1.toList ++ (keyMark b.1).toList := by
    simpa using (List.cons.inj hnames).2
  obtain ⟨hname, -⟩ := Text.append_inj_of_runs ha.run hb.run (head?_keyMark a.1)
    (head?_keyMark b.1) hmarks
  exact Prod.ext (String.toList_inj.mp hname) (Value.Kind.name_inj.mp (String.toList_inj.mp hkind))

/-- The line of an attribute is indented deeper than the end of a table. -/
theorem attributeEntry_ne_brace (a : String × Value.Kind) : attributeEntry a ≠ "    \x7d" := by
  intro h
  have hfifth : (attributeEntry a).toList[4]? = "    \x7d".toList[4]? := by rw [h]
  simp [attributeEntry] at hfifth

/-- The attributes of a table can be read up to the end of the table. -/
theorem attributes_inj {rest rest' : List String} (has : ∀ a ∈ as, IsUnspaced a.1)
    (hbs : ∀ b ∈ bs, IsUnspaced b.1)
    (h : as.map attributeEntry ++ "    \x7d" :: rest =
      bs.map attributeEntry ++ "    \x7d" :: rest') :
    as = bs ∧ rest = rest' := by
  induction as generalizing bs with
  | nil =>
    cases bs with
    | nil => exact ⟨rfl, (List.cons.inj h).2⟩
    | cons b bs => exact absurd (List.cons.inj h).1.symm (attributeEntry_ne_brace b)
  | cons a as ih =>
    cases bs with
    | nil => exact absurd (List.cons.inj h).1 (attributeEntry_ne_brace a)
    | cons b bs =>
      obtain ⟨hentry, hlater⟩ := List.cons.inj h
      obtain rfl := attributeEntry_inj (has a (by simp)) (hbs b (by simp)) hentry
      obtain ⟨rfl, hrest⟩ :=
        ih (fun c hc => has c (by simp [hc])) (fun c hc => hbs c (by simp [hc]))
        hlater
      exact ⟨rfl, hrest⟩

/-- The lines of a table tell where they end and which table they are of. -/
theorem Unspaced.lines_append_inj (ht : t.Unspaced) (hu : u.Unspaced) {rest rest' : List String}
    (h : lines t ++ rest = lines u ++ rest') : t = u ∧ rest = rest' := by
  obtain ⟨hhead, hlater⟩ := List.cons.inj h
  have hname : t.1 = u.1 := by
    simpa only [String.append_left_inj, String.append_right_inj] using hhead
  obtain ⟨hattributes, hrest⟩ := attributes_inj ht.2 hu.2 (by simpa using hlater)
  exact ⟨Prod.ext hname hattributes, hrest⟩

theorem flatMap_lines_inj {ts us : List TableShape} (hts : ∀ t ∈ ts, t.Unspaced)
    (hus : ∀ u ∈ us, u.Unspaced) (h : ts.flatMap lines = us.flatMap lines) : ts = us := by
  induction ts generalizing us with
  | nil =>
    cases us with
    | nil => rfl
    | cons u us => cases h
  | cons t ts ih =>
    cases us with
    | nil => cases h
    | cons u us =>
      rw [List.flatMap_cons, List.flatMap_cons] at h
      obtain ⟨rfl, hrest⟩ := (hts t (by simp)).lines_append_inj (hus u (by simp)) h
      rw [ih (fun v hv => hts v (by simp [hv])) (fun v hv => hus v (by simp [hv])) hrest]

theorem newline_notMem_keyMark (name : String) : '\n' ∉ (keyMark name).toList := by
  unfold keyMark
  split
  · decide
  · split <;> decide

theorem newline_notMem_attributeEntry (ha : IsUnspaced a.1) :
    '\n' ∉ (attributeEntry a).toList := by
  simp [attributeEntry, isUnspaced_name.newline_notMem, ha.newline_notMem, newline_notMem_keyMark]

theorem Unspaced.newline_notMem_of_mem_lines (ht : t.Unspaced) {line : String}
    (h : line ∈ lines t) : '\n' ∉ line.toList := by
  rw [lines, List.mem_cons, List.mem_append, List.mem_singleton, List.mem_map] at h
  rcases h with rfl | ⟨a, ha, rfl⟩ | rfl
  · simp [ht.1.newline_notMem]
  · exact newline_notMem_attributeEntry (ht.2 a ha)
  · decide

end TableShape

/-- The lines of a schema. -/
def schemaLines (tables : Keyed Relation) : List String :=
  "erDiagram" :: (schemaShape tables).flatMap TableShape.lines

theorem tableBlock_eq (name : String) (rows : Relation) :
    tableBlock name rows = Text.unlines ((tableShape? name rows).elim [] TableShape.lines) := by
  cases rows with
  | nil => rfl
  | cons row rows =>
    have hblock : tableBlock name (row :: rows) = "    " ++ name ++ " \x7b\n" ++
        String.join (row.entries.map fun e => attributeLine e.1 e.2) ++ "    \x7d\n" := rfl
    have hshape : tableShape? name (row :: rows) =
        some (name, row.entries.map fun e => (e.1, e.2.kind)) := rfl
    have hattributes : String.join (row.entries.map fun e => attributeLine e.1 e.2) =
        Text.unlines ((row.entries.map fun e => (e.1, e.2.kind)).map
          TableShape.attributeEntry) := by
      simp only [Text.unlines, List.map_map]
      congr 2
      funext e
      simp [attributeLine, TableShape.attributeEntry, Value.typeName_eq]
    rw [hblock, hshape, hattributes]
    simp [TableShape.lines, String.append_assoc]

theorem deriveSchema_eq (tables : Keyed Relation) :
    deriveSchema tables = Text.unlines (schemaLines tables) := by
  have hblocks (entries : List (String × Relation)) :
      String.join (entries.map fun (name, rows) => tableBlock name rows) =
        Text.unlines ((entries.filterMap fun (name, rows) => tableShape? name rows).flatMap
          TableShape.lines) := by
    induction entries with
    | nil => rfl
    | cons e entries ih =>
      obtain ⟨name, rows⟩ := e
      rw [List.map_cons, String.join_cons, ih, List.filterMap_cons]
      dsimp only
      rw [tableBlock_eq]
      cases tableShape? name rows <;> simp
  rw [deriveSchema, hblocks, schemaLines, Text.unlines_cons, schemaShape]
  rfl

theorem NamesUnspaced.unspaced_of_mem_shape {tables : Keyed Relation} (h : NamesUnspaced tables)
    {t : TableShape} (ht : t ∈ schemaShape tables) : t.Unspaced := by
  obtain ⟨⟨name, rows⟩, hentry, htable⟩ := List.mem_filterMap.mp ht
  obtain ⟨row, hrow, rfl⟩ := Option.map_eq_some_iff.mp htable
  obtain ⟨hname, hrows⟩ := h _ hentry
  refine ⟨hname, fun a ha => ?_⟩
  obtain ⟨⟨column, v⟩, hcolumn, rfl⟩ := List.mem_map.mp ha
  exact hrows row (List.mem_of_mem_head? hrow) column (List.mem_map_of_mem hcolumn)

theorem NamesUnspaced.hasLines {tables : Keyed Relation} (h : NamesUnspaced tables) :
    Text.HasLines (deriveSchema tables) (schemaLines tables) := by
  refine ⟨deriveSchema_eq tables, fun line hline => ?_⟩
  rcases List.mem_cons.mp hline with rfl | hline
  · decide
  · obtain ⟨t, ht, hline⟩ := List.mem_flatMap.mp hline
    exact (h.unspaced_of_mem_shape ht).newline_notMem_of_mem_lines hline

/-- Where no name contains white space, tables have the same schema exactly if they have the same
shape: those that are not empty agree, in order, in their names and in the names and types of the
attributes of their first rows. -/
theorem schema_determines_shape {tables tables' : Keyed Relation} (h : NamesUnspaced tables)
    (h' : NamesUnspaced tables') :
    deriveSchema tables = deriveSchema tables' ↔ schemaShape tables = schemaShape tables' := by
  constructor
  · intro heq
    have hlines := h.hasLines.unique (heq ▸ h'.hasLines)
    exact TableShape.flatMap_lines_inj (fun t => h.unspaced_of_mem_shape)
      (fun t => h'.unspaced_of_mem_shape) (List.cons.inj hlines).2
  · intro hshape
    rw [deriveSchema_eq, deriveSchema_eq, schemaLines, schemaLines, hshape]

theorem schema_determines_shape_braces :
    let first : Row := .ofList [("", .bool true), ("user_id", .text "x")]
    let t : Keyed Relation := .ofList [("\x7d", [first]), ("E", [])]
    let t' : Keyed Relation := .ofList
      [("\x7d", [.ofList [("", .bool false), ("user_id", .text "")], .ofList [("b", .bool true)]])]
    let u : Keyed Relation := .ofList
      [("\x7d", [.ofList [("user_id", .text "x"), ("", .bool true)]]), ("E", [])]
    NamesUnspaced t ∧ NamesUnspaced t' ∧ NamesUnspaced u ∧
      deriveSchema t = deriveSchema t' ∧ deriveSchema t ≠ deriveSchema u := by
  intro first t t' u
  have ht : NamesUnspaced t := by decide
  have ht' : NamesUnspaced t' := by decide
  have hu : NamesUnspaced u := by decide
  refine ⟨ht, ht', hu, (schema_determines_shape ht ht').mpr (by decide), fun heq => ?_⟩
  exact absurd ((schema_determines_shape ht hu).mp heq) (by decide)

end RelTrace
