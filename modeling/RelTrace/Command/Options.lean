/-!
# Options of the command

The arguments of the command are a query and options. An option that takes a value has it as the
next argument, after an equals sign, or, if it is written with one letter, directly behind the
letter. Letters without values may be written together. After two hyphens every argument is a query.

## Main definitions

* `Flag`: the options.
* `Arguments`: the options and the queries among the arguments.
* `Options.read?`: what the command is asked to do; nothing if the usage is wrong.
-/

namespace RelTrace

/-- The options. -/
inductive Flag where
  | database
  | useName
  | exampleNumber
  | stepNumber
  | graph
  | json
  | tree
  | list
  | schema
  | exportTo
  | verbose
deriving DecidableEq

namespace Flag

/-- The option of a word. -/
def ofWord? : String → Option Flag
  | "database" => some database
  | "use" => some useName
  | "example" => some exampleNumber
  | "step" => some stepNumber
  | "graph" => some graph
  | "json" => some json
  | "tree" => some tree
  | "list" => some list
  | "schema" => some schema
  | "export" => some exportTo
  | "verbose" => some verbose
  | _ => none

/-- The option of a letter. -/
def ofLetter? : Char → Option Flag
  | 'd' => some database
  | 'e' => some exampleNumber
  | 's' => some stepNumber
  | 'v' => some verbose
  | _ => none

/-- The option takes a value. -/
def takesValue : Flag → Bool
  | database | useName | exampleNumber | stepNumber | graph | exportTo => true
  | json | tree | list | schema | verbose => false

end Flag

/-- The arguments that have been read. -/
structure Arguments where
  /-- The options in order, with an empty text for those that take no value. -/
  given : List (Flag × String)
  queries : List String
  /-- The option whose value comes next. -/
  pending? : Option Flag
  /-- Two hyphens have been met. -/
  onlyQueries : Bool

namespace Arguments

/-- Nothing has been read. -/
def none : Arguments := ⟨[], [], .none, false⟩

/-- An option with its value. -/
def give (a : Arguments) (flag : Flag) (value : String) : Arguments :=
  { a with given := a.given ++ [(flag, value)], pending? := .none }

/-- Options written with one letter each. -/
def readLetters (a : Arguments) : List Char → Option Arguments
  | [] => some a
  | c :: rest =>
    match Flag.ofLetter? c with
    | .none => .none
    | some flag =>
      if flag.takesValue then
        match rest with
        | [] => some { a with pending? := some flag }
        | '=' :: value => some (a.give flag (String.ofList value))
        | value => some (a.give flag (String.ofList value))
      else readLetters (a.give flag "") rest

/-- An option written as a word, perhaps with its value after an equals sign. -/
def readWord (a : Arguments) (cs : List Char) : Option Arguments := do
  let flag ← Flag.ofWord? (String.ofList (cs.takeWhile (· ≠ '=')))
  match cs.dropWhile (· ≠ '='), flag.takesValue with
  | [], true => some { a with pending? := some flag }
  | [], false => some (a.give flag "")
  | _ :: value, true => some (a.give flag (String.ofList value))
  | _ :: _, false => .none

/-- Reads one more argument. -/
def read (a : Arguments) (argument : String) : Option Arguments :=
  if a.onlyQueries then some { a with queries := a.queries ++ [argument] }
  else
    match argument.toList, a.pending? with
    | '-' :: _ :: _, some _ => .none
    | ['-', '-'], .none => some { a with onlyQueries := true }
    | '-' :: '-' :: cs, .none => a.readWord cs
    | '-' :: c :: cs, .none => a.readLetters (c :: cs)
    | _, some flag => some (a.give flag argument)
    | _, .none => some { a with queries := a.queries ++ [argument] }

/-- The values of an option. -/
def values (a : Arguments) (flag : Flag) : List String :=
  a.given.filterMap fun (other, value) => if other = flag then some value else .none

end Arguments

/-- Which diagram to print. -/
inductive GraphMode where
  | operation
  | execution
deriving DecidableEq

/-- The diagram of a name. -/
def GraphMode.ofName? : String → Option GraphMode
  | "operation" => some operation
  | "execution" => some execution
  | _ => none

/-- What the command is asked to do. -/
structure Options where
  query? : Option String
  databases : List String
  useName? : Option String
  exampleNumber? : Option Nat
  stepNumber? : Option Nat
  graph? : Option GraphMode
  json : Bool
  tree : Bool
  list : Bool
  schema : Bool
  exportTo? : Option String
  verbosity : Nat

namespace Options

/-- At most one of its kind. -/
def atMostOne {α : Type} : List α → Option (Option α)
  | [] => some none
  | [a] => some (some a)
  | _ => none

/-- A path is not empty. -/
def path? (s : String) : Option String := if s.isEmpty then none else some s

/-- Counts are below this bound. -/
def countBound : Nat := Nat.pow 2 64

/-- A count in decimal digits, perhaps after a plus sign. -/
def count? (s : String) : Option Nat :=
  let ds := match s.toList with
    | '+' :: ds => ds
    | ds => ds
  if ds.isEmpty || !ds.all Char.isDigit then none
  else
    let n := ds.foldl (fun n c => 10 * n + (c.toNat - 48)) 0
    if n < countBound then some n else none

/-- The value of an option that may be given once. -/
def single? {α : Type} (a : Arguments) (flag : Flag) (value? : String → Option α) :
    Option (Option α) := do
  match ← atMostOne (a.values flag) with
  | some s => return some (← value? s)
  | none => return none

/-- Whether an option without a value is given; it may be given once. -/
def switch? (a : Arguments) (flag : Flag) : Option Bool :=
  (single? a flag some).map Option.isSome

/-- The options of some arguments. A query and the number of an example exclude each other. -/
def ofArguments? (a : Arguments) : Option Options := do
  if a.pending?.isSome then none
  let query? ← atMostOne a.queries
  let exampleNumber? ← single? a .exampleNumber count?
  if query?.isSome && exampleNumber?.isSome then none
  return {
    query?
    databases := ← (a.values .database).mapM path?
    useName? := ← single? a .useName some
    exampleNumber?
    stepNumber? := ← single? a .stepNumber count?
    graph? := ← single? a .graph GraphMode.ofName?
    json := ← switch? a .json
    tree := ← switch? a .tree
    list := ← switch? a .list
    schema := ← switch? a .schema
    exportTo? := ← single? a .exportTo path?
    verbosity := (a.values .verbose).length }

/-- The options that a list of arguments gives. -/
def read? (arguments : List String) : Option Options := do
  ofArguments? (← arguments.foldlM Arguments.read .none)

end Options

end RelTrace
