import RelTrace.Proofs.Command.Opening

/-!
# What comes before the trace

Before it prints a trace, the command opens the catalog, announces and exports the database, finds
the query, reads and evaluates it, and chooses the steps to show. Each of these stages may be the
last one. The text that is printed meanwhile grows by one piece for each stage, and no piece is part
of a trace.

## Main definitions

* `Command.IsPreface`: what may be printed before a trace.
* `Command.Evaluates`: the command comes to the trace of a query.
* `Command.Selects`: the part of a trace that a step number selects.
* `Command.Prepares`: how the stages may go.
-/

namespace RelTrace

namespace Command

/-- What is printed as soon as the catalog is open. -/
def announcement (o : Options) (c : Catalog) : String :=
  (if o.list then listing c else "") ++ if o.schema then c.current.schema ++ "\n" else ""

/-- What is printed about the export of a database. -/
def exportNotice (o : Options) (d : Database) : String :=
  match o.exportTo? with
  | some directory => "Exported " ++ d.name ++ " to " ++ Folder.join directory d.fileName ++ "\n"
  | none => ""

/-- What is printed before the trace of a tree. -/
def preface (o : Options) (c : Catalog) (e : Expr) : String :=
  announcement o c ++ exportNotice o c.current ++ if o.tree then e.outline else ""

/-- The database is exported, if that is asked for, which leads to the second folder. -/
def Exports (folder : Folder) (o : Options) (d : Database) (after : Folder) : Prop :=
  match o.exportTo? with
  | some directory => folder.write (Folder.join directory d.fileName) d.toText = .ok after
  | none => folder = after

/-- The query is given, or it is the example with the given number. -/
def Asks (o : Options) (d : Database) (query : String) : Prop :=
  o.query? = some query ∨
    o.query? = none ∧ ∃ n, o.exampleNumber? = some (n + 1) ∧ d.examples[n]? = some query

/-- The command comes to the trace of a query. -/
structure Evaluates (folder : Folder) (o : Options) (c : Catalog) (query : String) (e : Expr)
    (t : Trace) : Prop where
  opens : Opens folder o c
  exports : ∃ after, Exports folder o c.current after
  asks : Asks o c.current query
  compiles : (compile query).value = .ok e
  evaluates : (e.evaluate c.current.tables.find?).value = .ok t

/-- The places that a step number selects in a trace; without one, all places. -/
def Selects (stepNumber? : Option Nat) (count start stop : Nat) : Prop :=
  match stepNumber? with
  | some n => start + 1 = n ∧ stop = n ∧ n ≤ count
  | none => start = 0 ∧ stop = count

/-- A text that the command may have printed when it has printed nothing of a trace: some of its
pieces, from the first one on. -/
inductive IsPreface (folder : Folder) (o : Options) : String → Prop
  | nothing : IsPreface folder o ""
  | announced {c : Catalog} (hc : Opens folder o c) : IsPreface folder o (announcement o c)
  | exported {c : Catalog} {after : Folder} (hc : Opens folder o c)
      (hafter : Exports folder o c.current after) :
      IsPreface folder o (announcement o c ++ exportNotice o c.current)
  | outlined {c : Catalog} {after : Folder} {query : String} {e : Expr} (hc : Opens folder o c)
      (hafter : Exports folder o c.current after) (hquery : Asks o c.current query)
      (he : (compile query).value = .ok e) : IsPreface folder o (preface o c e)

/-- How the stages may go, with what they come to and what is printed meanwhile. -/
inductive Prepares (folder : Folder) (o : Options) :
    Except Failure (Option Prepared) × String → Prop
  | unopened {f : Failure} (h : ∀ c, ¬Opens folder o c) : Prepares folder o (.error f, "")
  | unexported {c : Catalog} {f : Failure} (hc : Opens folder o c)
      (h : ∀ after, ¬Exports folder o c.current after) :
      Prepares folder o (.error f, announcement o c)
  | unasked {c : Catalog} {after : Folder} {f : Failure} (hc : Opens folder o c)
      (hafter : Exports folder o c.current after) (h : ∀ query, ¬Asks o c.current query) :
      Prepares folder o (.error f, announcement o c ++ exportNotice o c.current)
  | idle {c : Catalog} {after : Folder} (hc : Opens folder o c)
      (hafter : Exports folder o c.current after) (h : ∀ query, ¬Asks o c.current query) :
      Prepares folder o (.ok none, announcement o c ++ exportNotice o c.current)
  | unreadable {c : Catalog} {after : Folder} {query : String} {f : Failure}
      (hc : Opens folder o c) (hafter : Exports folder o c.current after)
      (hquery : Asks o c.current query) (h : ∀ e, (compile query).value ≠ .ok e) :
      Prepares folder o (.error f, announcement o c ++ exportNotice o c.current)
  | malformed {c : Catalog} {after : Folder} {query : String} {e : Expr} {f : Failure}
      (hc : Opens folder o c) (hafter : Exports folder o c.current after)
      (hquery : Asks o c.current query) (he : (compile query).value = .ok e)
      (h : ∀ t, (e.evaluate c.current.tables.find?).value ≠ .ok t) :
      Prepares folder o (.error f, preface o c e)
  | outOfRange {c : Catalog} {query : String} {e : Expr} {t : Trace} {f : Failure}
      (h : Evaluates folder o c query e t)
      (hrange : ∀ start stop, ¬Selects o.stepNumber? t.steps.length start stop) :
      Prepares folder o (.error f, preface o c e)
  | ready {c : Catalog} {query : String} {e : Expr} {t : Trace} {start stop : Nat}
      (h : Evaluates folder o c query e t)
      (hrange : Selects o.stepNumber? t.steps.length start stop) :
      Prepares folder o
        (.ok (some ⟨query, t.steps, List.range' start (stop - start)⟩), preface o c e)

variable {folder after : Folder} {printed : String} {o : Options} {c : Catalog} {d : Database}
  {query : String} {e : Expr} {t : Trace}

theorem run_writeFile (folder : Folder) (path text : String) :
    ((Host.writeFile path text : Desk (Except FileError Unit)).run folder).value =
      match folder.write path text with
      | .ok after => (.ok (), after)
      | .error cause => (.error cause, folder) := by
  simp only [Host.writeFile]
  rw [StateT.run_bind, StateT.run_get, Logged.value_bind, Logged.value_pure]
  cases folder.write path text <;> rfl

/-- Exporting writes one file, or leaves the files as they are. -/
theorem run_exportTo (folder : Folder) (directory : String) (d : Database) :
    ((Database.exportTo directory d : Desk _).run folder).value =
      let path := Folder.join directory d.fileName
      match folder.write path d.toText with
      | .ok after => (.ok path, after)
      | .error cause => (.error (.unwritable path cause), folder) := by
  rw [Database.exportTo, StateT.run_bind, Logged.value_bind, run_writeFile]
  dsimp only
  generalize Folder.join directory d.fileName = path, d.toText = text
  cases folder.write path text <;> rfl

theorem runOn_exportDatabase {directory : String} (h : o.exportTo? = some directory)
    (hafter : Exports folder o d after) :
    runOn folder printed (exportDatabase d directory) =
      ((.ok (), printed ++ exportNotice o d), after) := by
  simp only [Exports, h] at hafter
  have hrun := run_exportTo folder directory d
  simp only [hafter] at hrun
  unfold exportDatabase
  rw [runOn_bind (runOn_onHost _), hrun]
  simp only [exportNotice, h]
  rfl

theorem exists_runOn_exportDatabase {directory : String} (h : o.exportTo? = some directory)
    (hafter : ∀ after, ¬Exports folder o d after) :
    ∃ f, runOn folder printed (exportDatabase d directory) = ((.error f, printed), folder) := by
  simp only [Exports, h] at hafter
  have hrun := run_exportTo folder directory d
  unfold exportDatabase
  rw [runOn_bind (runOn_onHost _)]
  cases hwrite : folder.write (Folder.join directory d.fileName) d.toText with
  | ok after => exact absurd hwrite (hafter after)
  | error cause =>
    simp only [hwrite] at hrun
    rw [hrun]
    exact ⟨_, rfl⟩

theorem isQuiet_chooseQuery (folder : Folder) (o : Options) (d : Database) :
    IsQuiet folder (chooseQuery o d) := by
  unfold chooseQuery
  split
  · exact isQuiet_pure _
  · split
    · exact isQuiet_pure _
    · exact isQuiet_throw _
  · split
    · exact isQuiet_pure _
    · exact isQuiet_throw _

theorem isQuiet_chooseSteps (folder : Folder) (o : Options) (count : Nat) :
    IsQuiet folder (chooseSteps o count) := by
  unfold chooseSteps
  split
  · split
    · exact isQuiet_pure _
    · exact isQuiet_throw _
  · exact isQuiet_pure _

theorem result_chooseQuery_eq_ok_some_iff :
    result folder (chooseQuery o d) = .ok (some query) ↔ Asks o d query := by
  unfold chooseQuery Asks
  cases o.query? with
  | some given => simp
  | none =>
    cases o.exampleNumber? with
    | none =>
      dsimp only
      split <;> simp
    | some n =>
      cases n with
      | zero => simp
      | succ n => cases hexample : d.examples[n]? <;> simp [hexample]

theorem result_chooseSteps_eq_ok_iff {count : Nat} {shown : List Nat} :
    result folder (chooseSteps o count) = .ok shown ↔
      ∃ start stop, Selects o.stepNumber? count start stop ∧
        shown = List.range' start (stop - start) := by
  unfold chooseSteps Selects
  cases o.stepNumber? with
  | none => simp [List.range_eq_range', eq_comm]
  | some n =>
    constructor
    · intro h
      by_cases hn : 1 ≤ n ∧ n ≤ count
      · simp only [if_pos hn, result_pure, Except.ok.injEq] at h
        refine ⟨n - 1, n, ⟨by omega, rfl, hn.2⟩, ?_⟩
        rw [← h, show n - (n - 1) = 1 by omega, List.range'_one]
      · simp [if_neg hn] at h
    · rintro ⟨start, _, ⟨rfl, rfl, hle⟩, rfl⟩
      simp [hle]

theorem runExpr_eq_ok_iff {db : Lookup} :
    (runExpr db e).value = .ok t ↔ (e.evaluate db).value = .ok t := by
  change (e.evaluate db).value.mapError QueryError.failed = .ok t ↔ _
  cases (e.evaluate db).value with
  | ok t' => exact ⟨fun h => congrArg _ (Except.ok.inj h), fun h => congrArg _ (Except.ok.inj h)⟩
  | error err => exact ⟨nofun, nofun⟩

/-- A query that has been asked. -/
theorem prepares_prepareQuery (hc : Opens folder o c) (hafter : Exports folder o c.current after)
    (hquery : Asks o c.current query) :
    Prepares folder o (runOn after (announcement o c ++ exportNotice o c.current)
      (do return some (← prepareQuery o c.current query))).1 := by
  let P (r : Except Failure Prepared × String) := Prepares folder o (r.1.map some, r.2)
  change Prepares folder o (runOn _ _ (prepareQuery o c.current query >>= _)).1
  rw [runOn_bind_pure]
  change P (runOn _ _ (prepareQuery o c.current query)).1
  unfold prepareQuery
  rw [(isQuiet_lift _).runOn_bind (result_lift _)]
  refine (isQuiet_take _ _).bind_cases (fun e he => ?_) fun h f => ?_
  · rw [result_take_eq_ok_iff] at he
    rw [runOn_ite_print, (isQuiet_lift _).runOn_bind (result_lift _)]
    refine (isQuiet_take _ _).bind_cases (fun t ht => ?_) fun h f => ?_
    · rw [result_take_eq_ok_iff, runExpr_eq_ok_iff] at ht
      have h : Evaluates folder o c query e t := ⟨hc, ⟨after, hafter⟩, hquery, he, ht⟩
      refine (isQuiet_chooseSteps after o _).bind_cases (fun shown hshown => ?_) fun hrange f => ?_
      · obtain ⟨start, stop, hrange, rfl⟩ := result_chooseSteps_eq_ok_iff.mp hshown
        exact .ready h hrange
      · exact .outOfRange h fun start stop hselects =>
          hrange _ (result_chooseSteps_eq_ok_iff.mpr ⟨start, stop, hselects, rfl⟩)
    · exact .malformed hc hafter hquery he fun t ht =>
        h t (result_take_eq_ok_iff.mpr (runExpr_eq_ok_iff.mpr ht))
  · exact .unreadable hc hafter hquery fun e he => h e (result_take_eq_ok_iff.mpr he)

/-- Choosing a query and evaluating it, once the database is exported. -/
theorem prepares_chooseQuery (hc : Opens folder o c) (hafter : Exports folder o c.current after) :
    Prepares folder o (runOn after (announcement o c ++ exportNotice o c.current) (do
      match ← chooseQuery o c.current with
      | some query => return some (← prepareQuery o c.current query)
      | none => return none)).1 := by
  have hnone {r : Except Failure (Option String)} (hr : result after (chooseQuery o c.current) = r)
      (h : ∀ query, r ≠ .ok (some query)) (query : String) : ¬Asks o c.current query :=
    fun hquery => h query (hr.symm.trans (result_chooseQuery_eq_ok_some_iff.mpr hquery))
  refine (isQuiet_chooseQuery after o _).bind_cases (fun query? h => ?_) fun h f => ?_
  · cases query? with
    | some query => exact prepares_prepareQuery hc hafter (result_chooseQuery_eq_ok_some_iff.mp h)
    | none => exact .idle hc hafter (hnone h nofun)
  · exact .unasked hc hafter (hnone rfl fun query => h (some query))

/-- The stages go in one of these ways. -/
theorem prepares (folder : Folder) (o : Options) :
    Prepares folder o (runOn folder "" (prepare o)).1 := by
  unfold prepare
  refine (isQuiet_openCatalog folder o).bind_cases (fun c hc => ?_) fun h f => ?_
  · rw [← opens_iff] at hc
    have hnote : runOn folder "" (onHost (Host.takeNote
        ⟨.info, "using database " ++ Text.quote c.current.name⟩)) = ((.ok (), ""), folder) := rfl
    dsimp only
    rw [runOn_bind hnote, runOn_ite_print, runOn_ite_print, String.empty_append]
    change Prepares folder o (runOn folder (announcement o c) _).1
    cases hexport : o.exportTo? with
    | some directory =>
      dsimp only
      by_cases hafter : ∃ after, Exports folder o c.current after
      · obtain ⟨after, hafter⟩ := hafter
        rw [runOn_bind (runOn_exportDatabase hexport hafter)]
        exact prepares_chooseQuery hc hafter
      · rw [not_exists] at hafter
        obtain ⟨f, hf⟩ := exists_runOn_exportDatabase hexport hafter
        rw [runOn_bind_error hf]
        exact .unexported hc hafter
    | none =>
      have hafter : Exports folder o c.current folder := by simp only [Exports, hexport]
      have hnotice : exportNotice o c.current = "" := by simp only [exportNotice, hexport]
      have h := prepares_chooseQuery hc hafter
      rw [hnotice, String.append_empty] at h
      exact h
  · exact .unopened fun c hc => h c (opens_iff.mp hc)

/-- If a stage fails, what has been printed is no part of a trace. -/
theorem Prepares.isPreface {f : Failure} (h : Prepares folder o (.error f, printed)) :
    IsPreface folder o printed := by
  cases h with
  | unopened => exact .nothing
  | unexported hc => exact .announced hc
  | unasked hc hafter => exact .exported hc hafter
  | unreadable hc hafter => exact .exported hc hafter
  | malformed hc hafter hquery he => exact .outlined hc hafter hquery he
  | outOfRange h => exact .outlined h.opens h.exports.choose_spec h.asks h.compiles

section Unique

variable {c' : Catalog} {query' : String} {e' : Expr} {t' : Trace}

theorem Opens.unique (h : Opens folder o c) (h' : Opens folder o c') : c' = c :=
  Except.ok.inj ((opens_iff.mp h').symm.trans (opens_iff.mp h))

theorem Asks.unique (h : Asks o d query) (h' : Asks o d query') : query' = query := by
  have hresult := (@result_chooseQuery_eq_ok_some_iff .empty o d query).mpr h
  have hresult' := (@result_chooseQuery_eq_ok_some_iff .empty o d query').mpr h'
  exact Option.some.inj (Except.ok.inj (hresult'.symm.trans hresult))

theorem Selects.unique {n? : Option Nat} {count start stop start' stop' : Nat}
    (h : Selects n? count start stop) (h' : Selects n? count start' stop') :
    start' = start ∧ stop' = stop := by
  cases n? with
  | none => exact ⟨h'.1.trans h.1.symm, h'.2.trans h.2.symm⟩
  | some n =>
    simp only [Selects] at h h'
    omega

theorem Evaluates.unique (h : Evaluates folder o c query e t)
    (h' : Evaluates folder o c' query' e' t') : c' = c ∧ query' = query ∧ e' = e ∧ t' = t := by
  obtain rfl := h.opens.unique h'.opens
  obtain rfl := h.asks.unique h'.asks
  obtain rfl := Except.ok.inj (h'.compiles.symm.trans h.compiles)
  exact ⟨rfl, rfl, rfl, Except.ok.inj (h'.evaluates.symm.trans h.evaluates)⟩

end Unique

/-- If the command comes to a trace, only the choice of its steps can fail. -/
theorem Evaluates.prepares_cases {r : Except Failure (Option Prepared) × String}
    (h : Evaluates folder o c query e t) (hr : Prepares folder o r) :
    (∃ start stop, Selects o.stepNumber? t.steps.length start stop ∧
        r = (.ok (some ⟨query, t.steps, List.range' start (stop - start)⟩), preface o c e)) ∨
      (∀ start stop, ¬Selects o.stepNumber? t.steps.length start stop) ∧
        ∃ f, r = (.error f, preface o c e) := by
  obtain ⟨hc, ⟨after, hafter⟩, hquery, he, ht⟩ := id h
  cases hr with
  | unopened h' => exact absurd hc (h' c)
  | unexported hc' h' =>
    obtain rfl := hc.unique hc'
    exact absurd hafter (h' after)
  | unasked hc' _ h' | idle hc' _ h' =>
    obtain rfl := hc.unique hc'
    exact absurd hquery (h' query)
  | unreadable hc' _ hquery' h' =>
    obtain rfl := hc.unique hc'
    obtain rfl := hquery.unique hquery'
    exact absurd he (h' e)
  | malformed hc' _ hquery' he' h' =>
    obtain rfl := hc.unique hc'
    obtain rfl := hquery.unique hquery'
    obtain rfl := Except.ok.inj (he'.symm.trans he)
    exact absurd ht (h' t)
  | outOfRange h' hrange =>
    obtain ⟨rfl, rfl, rfl, rfl⟩ := h.unique h'
    exact .inr ⟨hrange, _, rfl⟩
  | ready h' hrange =>
    obtain ⟨rfl, rfl, rfl, rfl⟩ := h.unique h'
    exact .inl ⟨_, _, hrange, rfl⟩

end Command

end RelTrace
