import RelTrace.Database.Storage
import RelTrace.Trace.Evaluate

/-!
# Failures of the command

A failure has a message and the causes that it goes back to. It is shown with its causes below it,
numbered if there are several.

## Main definitions

* `Failure`, `Failure.text`.
-/

namespace RelTrace

/-- Why the command fails. -/
structure Failure where
  message : String
  causes : List String
deriving DecidableEq

namespace Failure

/-- The failure of a query. -/
def ofQuery (e : QueryError) : Failure := ⟨e.message, [e.cause]⟩

/-- The failure of a database operation. -/
def ofDatabase (e : DatabaseError) : Failure := ⟨e.message, e.causes⟩

/-- The same failure as the cause of another one. -/
def within (message : String) (f : Failure) : Failure := ⟨message, f.message :: f.causes⟩

/-- Breaks of lines in a cause are followed by a margin. -/
def indent (margin : String) (s : String) : String :=
  String.ofList (s.toList.flatMap fun c => if c = '\n' then c :: margin.toList else [c])

/-- The lines below the message. -/
def causesText : List String → String
  | [] => ""
  | [cause] => "\nCaused by:\n    " ++ indent "    " cause ++ "\n"
  | causes =>
    "\nCaused by:\n" ++ String.join (causes.zipIdx.map fun (cause, index) =>
      let number := toString index
      String.ofList (List.replicate (5 - number.length) ' ') ++ number ++ ": " ++
        indent "       " cause ++ "\n")

/-- The failure with its causes. -/
def text (f : Failure) : String := "Error: " ++ f.message ++ "\n" ++ causesText f.causes

end Failure

end RelTrace
