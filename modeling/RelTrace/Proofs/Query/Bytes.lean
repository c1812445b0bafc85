import RelTrace.Proofs.Query.Placement

/-!
# Spans in bytes

The boundaries of an encoded text lie behind its first characters, however many are counted. A span
that fits the text begins and ends at boundaries, and the bytes from one to the other encode the
characters that it covers.

## Main definitions

* `Text.between`: some characters of a text, counted from its beginning.
* `Text.bytes?`: the text that some bytes of an encoded text encode, if they cut no character.
-/

namespace RelTrace

namespace Text

/-- The text of the characters from one place up to but not including another. -/
def between (i j : Nat) (source : String) : String := String.ofList ((source.toList.take j).drop i)

/-- The text that is encoded from one byte to another, unless one of them lies inside of a character
or they are out of order. -/
def bytes? (source : String) (i j : Nat) : Option String :=
  if h : (⟨i⟩ : String.Pos.Raw).IsValid source ∧ (⟨j⟩ : String.Pos.Raw).IsValid source ∧ i ≤ j then
    some (String.extract (⟨⟨i⟩, h.1⟩ : source.Pos) ⟨⟨j⟩, h.2.1⟩)
  else none

variable {i j k : Nat} (source : String)

@[simp]
theorem between_zero_length : between 0 source.length source = source := by
  rw [between, List.drop_zero, ← String.length_toList, List.take_length, String.ofList_toList]

theorem length_between (hj : j ≤ source.length) : (between i j source).length = j - i := by
  rw [between, String.length_ofList, List.length_drop, List.length_take, String.length_toList,
    Nat.min_eq_left hj]

theorem between_append (hij : i ≤ j) (hjk : j ≤ k) :
    between i j source ++ between j k source = between i k source := by
  have hfirst : source.toList.take j = (source.toList.take k).take j := by
    rw [List.take_take, Nat.min_eq_left hjk]
  have hsecond : (source.toList.take k).drop j = ((source.toList.take k).drop i).drop (j - i) := by
    rw [List.drop_drop, Nat.add_sub_cancel' hij]
  rw [between, between, between, ← String.ofList_append, hfirst, hsecond, List.drop_take,
    List.take_append_drop]

/-- Between two parts of a text no character is cut. -/
theorem bytes?_append (before inside after : String) :
    bytes? (before ++ inside ++ after) before.utf8ByteSize (before ++ inside).utf8ByteSize =
      some inside := by
  have hstart : (⟨before.utf8ByteSize⟩ : String.Pos.Raw).IsValid (before ++ inside ++ after) :=
    String.Pos.Raw.isValid_iff_exists_append.mpr
      ⟨before, inside ++ after, String.append_assoc, rfl⟩
  have hstop : (⟨(before ++ inside).utf8ByteSize⟩ : String.Pos.Raw).IsValid
      (before ++ inside ++ after) :=
    String.Pos.Raw.isValid_iff_exists_append.mpr ⟨before ++ inside, after, rfl, rfl⟩
  have hle : before.utf8ByteSize ≤ (before ++ inside).utf8ByteSize := by
    rw [String.utf8ByteSize_append]
    exact Nat.le_add_right _ _
  rw [bytes?, dif_pos ⟨hstart, hstop, hle⟩, Option.some_inj, ← String.toByteArray_inj,
    String.toByteArray_extract, String.toByteArray_append]
  simp only [← String.size_toByteArray]
  rw [ByteArray.extract_append_size_left, String.toByteArray_append]
  exact ByteArray.extract_append_eq_right rfl ByteArray.size_append

/-- The bytes between the ends of two beginnings of a text encode the characters between them. -/
theorem bytes?_between (hij : i ≤ j) (hj : j ≤ source.length) :
    bytes? source (between 0 i source).utf8ByteSize (between 0 j source).utf8ByteSize =
      some (between i j source) := by
  have hsource : source = between 0 i source ++ between i j source ++
      between j source.length source := by
    rw [between_append source (Nat.zero_le i) hij, between_append source (Nat.zero_le j) hj,
      between_zero_length]
  have hcut := bytes?_append (between 0 i source) (between i j source)
    (between j source.length source)
  rwa [← hsource, between_append source (Nat.zero_le i) hij] at hcut

end Text

theorem byteLength_eq (cs : List Char) : byteLength cs = (String.ofList cs).utf8ByteSize := by
  induction cs with
  | nil => rfl
  | cons c cs ih =>
    have hsplit : String.ofList (c :: cs) = String.singleton c ++ String.ofList cs := by
      rw [String.singleton_eq_ofList, ← String.ofList_append, List.singleton_append]
    rw [byteLength, ih, hsplit, String.utf8ByteSize_append, String.utf8ByteSize_singleton]

theorem byteLength_append (cs ds : List Char) :
    byteLength (cs ++ ds) = byteLength cs + byteLength ds := by
  rw [byteLength_eq, byteLength_eq, byteLength_eq, String.ofList_append, String.utf8ByteSize_append]

/-- The boundary behind some characters lies where their bytes end. -/
theorem getElem?_boundaries (place k : Nat) (cs : List Char) :
    (boundaries place cs)[k]? =
      if k ≤ cs.length then some (place + byteLength (cs.take k)) else none := by
  induction cs generalizing place k with
  | nil => cases k <;> simp [boundaries, byteLength]
  | cons c cs ih =>
    cases k with
    | zero => simp [boundaries, byteLength]
    | succ k => simp [boundaries, byteLength, ih, Nat.add_assoc]

namespace Span

variable (s : Span) (source : String)

/-- The boundaries from the start of a span on. -/
theorem getElem?_drop_boundaries (k : Nat) :
    ((boundaries 0 source.toList).drop s.start)[k]? =
      if s.start + k ≤ source.length then
        some (Text.between 0 (s.start + k) source).utf8ByteSize
      else none := by
  rw [List.getElem?_drop, getElem?_boundaries, String.length_toList, Nat.zero_add, byteLength_eq,
    Text.between, List.drop_zero]

/-- The span covers the bytes from the end of the characters before it to the end of its own. -/
theorem byteRange?_eq :
    s.byteRange? source =
      if s.start ≤ s.stop ∧ s.stop ≤ source.length then
        some ((Text.between 0 s.start source).utf8ByteSize,
          (Text.between 0 s.stop source).utf8ByteSize)
      else none := by
  rw [byteRange?]
  by_cases hlt : s.stop < s.start
  · rw [if_pos hlt, if_neg (by omega)]
  rw [if_neg hlt]
  have hfirst := s.getElem?_drop_boundaries source 0
  -- the place of the stop among all boundaries, from the start on
  have hlast := s.getElem?_drop_boundaries source (s.stop - s.start)
  rw [Nat.add_sub_cancel' (Nat.le_of_not_lt hlt)] at hlast
  cases hdrop : (boundaries 0 source.toList).drop s.start with
  | nil =>
    rw [hdrop, List.getElem?_nil] at hlast
    grind
  | cons first later =>
    rw [hdrop] at hfirst hlast
    by_cases heq : s.stop = s.start
    · grind
    · -- the boundary at the start is gone when the one at the stop is looked for
      have hplace : s.stop - s.start = s.stop - s.start - 1 + 1 := by omega
      rw [hplace, List.getElem?_cons_succ] at hlast
      grind

theorem slice?_eq :
    s.slice? source =
      if s.start ≤ s.stop ∧ s.stop ≤ source.length then
        some (Text.between s.start s.stop source)
      else none := by
  rw [slice?, split?, String.length_toList, Text.between]
  grind [fits]

/-- The text that a span covers is encoded by the bytes that it covers. -/
theorem slice?_eq_bytes? :
    s.slice? source =
      (s.byteRange? source).bind fun range => Text.bytes? source range.1 range.2 := by
  rw [byteRange?_eq, slice?_eq]
  split
  next h => exact (Text.bytes?_between source h.1 h.2).symm
  next => rfl

end Span

end RelTrace
