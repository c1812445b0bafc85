/-!
# Spans

A span is a half-open range of characters of a text.

## Main definitions

* `Span.split?`: the text before, inside and after a span.
* `Span.byteRange?`: the same range counted in bytes of the encoded text.
* `Span.slice?`: the text that a span covers.
-/

namespace RelTrace

/-- The characters from `start` up to but not including `stop`. -/
structure Span where
  start : Nat
  stop : Nat
deriving DecidableEq

/-- The number of bytes that encode some characters. -/
def byteLength : List Char → Nat
  | [] => 0
  | c :: cs => c.utf8Size + byteLength cs

/-- The places in an encoded text where its characters begin, and its end, if the text begins at
the given place. -/
def boundaries (place : Nat) : List Char → List Nat
  | [] => [place]
  | c :: cs => place :: boundaries (place + c.utf8Size) cs

namespace Span

/-- The span lies within a text of the given length. -/
def fits (s : Span) (length : Nat) : Bool := s.start ≤ s.stop && s.stop ≤ length

/-- The characters before, inside and after the span, if it lies within the text. -/
def split? (s : Span) (cs : List Char) : Option (List Char × List Char × List Char) :=
  if s.fits cs.length then
    some (cs.take s.start, (cs.take s.stop).drop s.start, cs.drop s.stop)
  else none

/-- The bytes that the span covers in the encoded text. The boundary at its stop is looked for
behind the one at its start. -/
def byteRange? (s : Span) (source : String) : Option (Nat × Nat) :=
  if s.stop < s.start then none
  else
    match (boundaries 0 source.toList).drop s.start with
    | [] => none
    | first :: later =>
      if s.stop = s.start then some (first, first)
      else later[s.stop - s.start - 1]?.map fun last => (first, last)

/-- The text that the span covers. -/
def slice? (s : Span) (source : String) : Option String :=
  (s.split? source.toList).map fun (_, inside, _) => String.ofList inside

end Span

end RelTrace
