import RelTrace.Catalog
import RelTrace.Command.Failure
import RelTrace.Command.Options
import RelTrace.Database.Schema
import RelTrace.Query.Canonical
import RelTrace.Relation.Grid
import RelTrace.Trace.Graph
import RelTrace.Trace.Highlight
import RelTrace.Trace.Json

/-!
# The command

The command loads databases, lists and exports them, and shows the trace of a query. All that can
fail comes first. What was printed or written before a failure stays, but a trace is printed only if
nothing fails.

## Main definitions

* `Command.prepare`: everything up to the trace.
* `Command.present`: the printed trace.
* `Command.perform`: what the command prints and how it ends, on any host.
* `Command.run`: the same on a folder, with what is then in the folder.
-/

namespace RelTrace

namespace Command

/-- A part of the command on a host that prints and may fail. -/
abbrev Session (m : Type → Type) := ExceptT Failure (StateT String m)

section

variable {m : Type → Type} [Monad m]

/-- Prints a text. -/
def print (s : String) : Session m Unit := modify fun printed => printed ++ s

/-- Takes a result, or fails with what its error means. -/
def take {ε α : Type} (failure : ε → Failure) : Except ε α → Session m α
  | .ok a => return a
  | .error e => throw (failure e)

variable [Host m]

/-- Does something on the host. -/
def onHost {α : Type} (x : m α) : Session m α := (x : StateT String m α)

/-- Loads a database into a catalog. -/
def load (catalog : Catalog) (path : String) : Session m Catalog := do
  let failure (e : DatabaseError) := (Failure.ofDatabase e).within ("loading database " ++ path)
  return catalog.add (← take failure (← onHost (Database.load path)))

/-- The catalog of the loaded databases with the wanted one current. -/
def openCatalog (o : Options) : Session m Catalog := do
  let catalog ← o.databases.foldlM load Catalog.initial
  match o.useName? with
  | some name => take Failure.ofDatabase (catalog.switchTo name)
  | none => return catalog

end

/-- The lines of a database in the listing. -/
def listingEntry (current : String) (d : Database) : String :=
  let mark := if d.name = current then "*" else " "
  mark ++ " " ++ d.name ++ "\n" ++
    (match d.description? with
      | some description => "    " ++ description ++ "\n"
      | none => "") ++
    String.join (d.tables.entries.map fun (name, rows) =>
      "    " ++ name ++ " (" ++ toString rows.length ++ " rows)\n") ++
    String.join (d.examples.zipIdx.map fun (query, index) =>
      "    [" ++ toString (index + 1) ++ "] " ++ query ++ "\n")

/-- The databases of a catalog with their tables and examples. Every database with the name of the
current one is marked. -/
def listing (c : Catalog) : String :=
  String.join (c.databases.map (listingEntry c.current.name))

section

variable {m : Type → Type} [Monad m]

/-- The query to show, if there is one to show. Without a query there has to be something else to
do. -/
def chooseQuery (o : Options) (d : Database) : Session m (Option String) :=
  match o.query?, o.exampleNumber? with
  | some query, _ => return some query
  | none, some n =>
    match if n = 0 then none else d.examples[n - 1]? with
    | some query => return some query
    | none => throw ⟨d.name ++ " has " ++ toString d.examples.length ++ " example queries", []⟩
  | none, none =>
    if o.list || o.schema || o.exportTo?.isSome then return none
    else throw ⟨"no query given (pass a query, --example N or --list)", []⟩

/-- The places of the steps to show. -/
def chooseSteps (o : Options) (count : Nat) : Session m (List Nat) :=
  match o.stepNumber? with
  | some n =>
    if 1 ≤ n ∧ n ≤ count then return [n - 1]
    else throw ⟨"step " ++ toString n ++ " out of range, the query has " ++ toString count ++
      " steps", []⟩
  | none => return List.range count

/-- A trace that is ready to be printed. -/
structure Prepared where
  query : String
  steps : List Step
  /-- The places of the steps to show. -/
  shown : List Nat

variable [Host m]

/-- Evaluates a query up to the steps to show. -/
def prepareQuery (o : Options) (d : Database) (query : String) : Session m Prepared := do
  let e ← take (Failure.ofQuery ∘ .unreadable) (← onHost (Host.lift (compile query)))
  if o.tree then print e.outline
  let trace ← take Failure.ofQuery (← onHost (Host.lift (runExpr d.tables.find? e)))
  return ⟨query, trace.steps, ← chooseSteps o trace.steps.length⟩

/-- Exports a database into a directory and says so. -/
def exportDatabase (d : Database) (directory : String) : Session m Unit := do
  let path ← take Failure.ofDatabase (← onHost (Database.exportTo directory d))
  print ("Exported " ++ d.name ++ " to " ++ path ++ "\n")

/-- Everything up to the trace; there is none if no query was asked for. -/
def prepare (o : Options) : Session m (Option Prepared) := do
  let catalog ← openCatalog o
  let d := catalog.current
  onHost (Host.takeNote ⟨.info, "using database " ++ Text.quote d.name⟩)
  if o.list then print (listing catalog)
  if o.schema then print (d.schema ++ "\n")
  if let some directory := o.exportTo? then exportDatabase d directory
  match ← chooseQuery o d with
  | some query => return some (← prepareQuery o d query)
  | none => return none

end

/-- The block of a step: its description, the query with its part marked, and its rows. -/
def stepBlock (query : String) (count : Nat) (index : Nat) (s : Step) : Logged String := do
  let marked ← highlight .brackets s.span query
  return "Step " ++ toString (index + 1) ++ " of " ++ toString count ++ ": " ++ s.description ++
    "\n  " ++ marked ++ "\n" ++ s.rows.grid ++ "\n"

/-- The diagram around a step, if one is asked for. -/
def diagram (o : Options) (steps : List Step) (current : Nat) : String :=
  let nodes := steps.map Step.graphNode
  let graph? := match o.graph? with
    | some .operation => stepGraph? nodes current
    | some .execution => some (traceGraph nodes current)
    | none => none
  match graph? with
  | some graph => graph ++ "\n"
  | none => ""

/-- The printed trace: JSON, or blocks of steps and perhaps a diagram around the last of them. -/
def present (o : Options) (p : Prepared) : Logged String := do
  let shown := p.shown.filterMap fun index => p.steps[index]?.map fun s => (index, s)
  if o.json then return (stepsToJson (shown.map Prod.snd)).pretty ++ "\n"
  else
    let blocks ← shown.mapM fun (index, s) => stepBlock p.query p.steps.length index s
    return String.join blocks ++ diagram o p.steps (p.shown.getLast?.getD 0)

/-- How the command ends: its exit code and what it has printed. -/
structure Outcome where
  code : Nat
  output : String
  errors : String
deriving DecidableEq

/-- How to use the command. -/
def usage : String :=
  "Usage: reltrace [OPTIONS] [QUERY]\n" ++
  "\n" ++
  "  -d, --database FILE     load a database; the last one is used\n" ++
  "      --use NAME          use a loaded database\n" ++
  "  -e, --example N         show an example query of the database\n" ++
  "  -s, --step N            show only one step\n" ++
  "      --graph MODE        draw the steps: operation or execution\n" ++
  "      --json              print the trace as JSON\n" ++
  "      --tree              print the tree of the query\n" ++
  "      --list              list the databases\n" ++
  "      --schema            print the schema of the database\n" ++
  "      --export DIRECTORY  write the database as JSON\n" ++
  "  -v, --verbose           show more notes\n"

/-- How the command ends if the arguments are wrong. -/
def misuse : Outcome := ⟨2, "", usage⟩

/-- Does what the options ask for. -/
def perform {m : Type → Type} [Monad m] [Host m] (o : Options) : m Outcome := do
  let (result, printed) ← (prepare o).run.run ""
  match result with
  | .error f => return ⟨1, printed, f.text⟩
  | .ok none => return ⟨0, printed, ""⟩
  | .ok (some p) => return ⟨0, printed ++ (← Host.lift (present o p)), ""⟩

/-- Runs the command with some arguments on a folder. Wrong arguments end it at once. -/
def run (folder : Folder) (arguments : List String) : Logged (Outcome × Folder) :=
  match Options.read? arguments with
  | some o => (perform o : Desk Outcome).run folder
  | none => pure (misuse, folder)

end Command

end RelTrace
