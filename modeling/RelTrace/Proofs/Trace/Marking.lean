import Mathlib.Data.List.Basic
import RelTrace.Proofs.Query.Bytes
import RelTrace.Trace.Highlight

/-!
# Marking the bytes of a span

A text is marked in its encoded form: it is cut where the bytes of the span begin and end, and the
marks are put in. No cut lies inside of a character, and the marks can be taken out again.

## Main definitions

* `Span.markBytes?`: the text with the bytes of a span marked.
* `Span.unmark?`: the text that is left when the marks of a span are taken out.
-/

namespace RelTrace

namespace Span

/-- The text with the bytes that the span covers marked, if no character is cut. A text that the
span does not fit stays as it is. -/
def markBytes? (s : Span) (marks : Marks) (source : String) : Option String :=
  match s.byteRange? source with
  | none => some source
  | some (i, j) => do
    let before ← Text.bytes? source 0 i
    let inside ← Text.bytes? source i j
    let after ← Text.bytes? source j source.utf8ByteSize
    some (before ++ marks.opening ++ inside ++ marks.closing ++ after)

/-- The text without the marks, if the opening one stands where the span starts and the closing one
behind as many characters as the span covers. -/
def unmark? (s : Span) (marks : Marks) (marked : String) : Option String := do
  let inside ← marks.opening.toList.isPrefixOf? (marked.toList.drop s.start)
  let after ← marks.closing.toList.isPrefixOf? (inside.drop (s.stop - s.start))
  some (String.ofList
    (marked.toList.take s.start ++ inside.take (s.stop - s.start) ++ after))

variable (s : Span) (source : String) (marks : Marks)

/-- What highlighting shows, character by character. -/
theorem highlight_value :
    (highlight marks s source).value =
      if s.start ≤ s.stop ∧ s.stop ≤ source.length then
        Text.between 0 s.start source ++ marks.opening ++ Text.between s.start s.stop source ++
          marks.closing ++ Text.between s.stop source.length source
      else source := by
  rw [highlight, split?, String.length_toList]
  by_cases h : s.start ≤ s.stop ∧ s.stop ≤ source.length
  · have hfits : s.fits source.length := by simpa [fits] using h
    rw [if_pos hfits, if_pos h]
    simp [Text.between, ← String.length_toList]
  · have hfits : ¬ s.fits source.length := by simpa [fits] using h
    rw [if_neg hfits, if_neg h]
    rfl

/-- Highlighting cuts a text at the bytes of the span, and no character is cut. -/
theorem markBytes?_eq : s.markBytes? marks source = some (highlight marks s source).value := by
  rw [highlight_value, markBytes?, byteRange?_eq]
  by_cases h : s.start ≤ s.stop ∧ s.stop ≤ source.length
  · have hbefore := Text.bytes?_between source (Nat.zero_le s.start) (Nat.le_trans h.1 h.2)
    have hinside := Text.bytes?_between source h.1 h.2
    have hafter := Text.bytes?_between source h.2 Nat.le.refl
    rw [Text.between_zero_length] at hafter
    have hzero : (Text.between 0 0 source).utf8ByteSize = 0 := by simp [Text.between]
    rw [hzero] at hbefore
    simp [if_pos h, hbefore, hinside, hafter]
  · simp [if_neg h]

variable {s} in
/-- Marks are found behind as many characters as the span says, and taken out. -/
theorem unmark?_marked {before inside after : String} (hstart : before.length = s.start)
    (hstop : inside.length = s.stop - s.start) :
    s.unmark? marks (before ++ marks.opening ++ inside ++ marks.closing ++ after) =
      some (before ++ inside ++ after) := by
  have hopening : marks.opening.toList.isPrefixOf?
      ((before ++ marks.opening ++ inside ++ marks.closing ++ after).toList.drop s.start) =
        some (inside ++ marks.closing ++ after).toList := by
    rw [List.isPrefixOf?_eq_some_iff_append_eq, ← hstart, ← String.length_toList]
    simp
  have hclosing : marks.closing.toList.isPrefixOf?
      ((inside ++ marks.closing ++ after).toList.drop (s.stop - s.start)) = some after.toList := by
    rw [List.isPrefixOf?_eq_some_iff_append_eq, ← hstop, ← String.length_toList]
    simp
  rw [unmark?, hopening, Option.bind_eq_bind, Option.bind_some, hclosing, Option.bind_some,
    ← hstop, ← hstart]
  simp [← String.length_toList, String.append_assoc]

theorem unmark?_highlight (h : s.start ≤ s.stop ∧ s.stop ≤ source.length) :
    s.unmark? marks (highlight marks s source).value = some source := by
  have hle := Nat.le_trans h.1 h.2
  rw [highlight_value, if_pos h, unmark?_marked marks (Text.length_between source hle)
    (Text.length_between source h.2), Text.between_append source (Nat.zero_le _) h.1,
    Text.between_append source (Nat.zero_le _) h.2, Text.between_zero_length]

end Span

/-- Characters and bytes agree on what a span covers, and highlighting, which cuts the bytes, shows
the characters that are covered between the marks and no other change. -/
theorem spans_agree_with_bytes (s : Span) (source : String) :
    s.byteRange? source =
        (if s.start ≤ s.stop ∧ s.stop ≤ source.length then
          some ((Text.between 0 s.start source).utf8ByteSize,
            (Text.between 0 s.stop source).utf8ByteSize)
        else none) ∧
      s.slice? source =
        ((s.byteRange? source).bind fun range => Text.bytes? source range.1 range.2) ∧
      s.slice? source =
        (if s.start ≤ s.stop ∧ s.stop ≤ source.length then
          some (Text.between s.start s.stop source)
        else none) ∧
      ∀ marks, s.markBytes? marks source = some (highlight marks s source).value ∧
        (¬ (s.start ≤ s.stop ∧ s.stop ≤ source.length) →
          (highlight marks s source).value = source) ∧
        (s.start ≤ s.stop ∧ s.stop ≤ source.length →
          (highlight marks s source).value =
              Text.between 0 s.start source ++ marks.opening ++
                Text.between s.start s.stop source ++ marks.closing ++
                Text.between s.stop source.length source ∧
            s.unmark? marks (highlight marks s source).value = some source) := by
  refine ⟨s.byteRange?_eq source, s.slice?_eq_bytes? source, s.slice?_eq source, fun marks => ?_⟩
  have hvalue := s.highlight_value source marks
  refine ⟨s.markBytes?_eq source marks, fun h => ?_, fun h => ⟨?_, ?_⟩⟩
  · rw [hvalue, if_neg h]
  · rw [hvalue, if_pos h]
  · exact s.unmark?_highlight source marks h

/-- A character of two bytes at the end of a text, and a span that reaches over the end. -/
theorem spans_agree_with_bytes_end :
    (⟨1, 2⟩ : Span).byteRange? "πé" = some (2, 4) ∧
      (⟨1, 2⟩ : Span).slice? "πé" = some "é" ∧
      (highlight .brackets ⟨1, 2⟩ "πé").value = "π⟦é⟧" ∧
      (⟨1, 2⟩ : Span).unmark? .brackets "π⟦é⟧" = some "πé" ∧
      (highlight .brackets ⟨1, 3⟩ "πé").value = "πé" := by
  have hfits : 1 ≤ 2 ∧ 2 ≤ "πé".length := by decide
  obtain ⟨hrange, -, hslice, hmarks⟩ := spans_agree_with_bytes ⟨1, 2⟩ "πé"
  obtain ⟨hmarked, hunmarked⟩ := (hmarks .brackets).2.2 hfits
  have hover : ¬ (1 ≤ 3 ∧ 3 ≤ "πé".length) := by decide
  obtain ⟨-, -, -, hmarks'⟩ := spans_agree_with_bytes ⟨1, 3⟩ "πé"
  refine ⟨hrange, hslice, hmarked, ?_, (hmarks' .brackets).2.1 hover⟩
  rw [hmarked] at hunmarked
  exact hunmarked

end RelTrace
