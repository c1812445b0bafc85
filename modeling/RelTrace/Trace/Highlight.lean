import RelTrace.Log
import RelTrace.Query.Span

/-!
# Highlighting

The text of a query with the characters of a span between two marks. A span that does not fit the
text leaves it unmarked.

## Main definitions

* `Marks`: the marks, for terminals and for plain text.
* `highlight`: the marked text.
-/

namespace RelTrace

/-- What stands before and after the marked characters. -/
structure Marks where
  opening : String
  closing : String

namespace Marks

/-- Reverse video on a terminal. -/
def ansi : Marks := ⟨"\x1b[7m", "\x1b[0m"⟩

/-- White square brackets. -/
def brackets : Marks := ⟨"⟦", "⟧"⟩

end Marks

/-- The text with the characters of the span marked. -/
def highlight (marks : Marks) (span : Span) (source : String) : Logged String :=
  match span.split? source.toList with
  | some (before, inside, after) =>
    pure (String.ofList before ++ marks.opening ++ String.ofList inside ++ marks.closing ++
      String.ofList after)
  | none => do
    Logged.note .warn ("span Span \x7b start: " ++ toString span.start ++ ", end: " ++
      toString span.stop ++ " \x7d does not fit query of " ++ toString source.length ++
      " characters")
    pure source

end RelTrace
