import RelTrace.Proofs.Command.Printing
import RelTrace.Proofs.Trace.Depiction
import RelTrace.Proofs.Trace.Highlight

/-!
# The block of a step

A block begins with a line that numbers the step and says what it does. Then come the query, in
which the part of the step is marked, and the table of the rows. All of these can be told from the
block, so that no two steps of a query have the same one.

## Main definitions

* `Command.title`, `Command.body`: the first line of a block, and what follows it.
-/

namespace RelTrace.Command

variable {db : Lookup} {query description description' : String} {t : Trace} {s s' : Step}
  {count count' index index' : Nat}

/-- The first line of a block, without its end. -/
def title (count index : Nat) (description : String) : String :=
  "Step " ++ toString (index + 1) ++ " of " ++ toString count ++ ": " ++ description

/-- What follows the title in a block: the marked query and the table. -/
def body (marked : String) (rows : Relation) : String :=
  "\n  " ++ marked ++ "\n" ++ rows.grid ++ "\n"

theorem value_stepBlock (query : String) (count index : Nat) (s : Step) :
    (stepBlock query count index s).value =
      title count index s.description ++ body (highlight .brackets s.span query).value s.rows := by
  have hvalue : (stepBlock query count index s).value =
      title count index s.description ++ "\n  " ++ (highlight .brackets s.span query).value ++
        "\n" ++ s.rows.grid ++ "\n" := rfl
  simp only [hvalue, body, String.append_assoc]

/-- A number that is followed by something else can be told. -/
theorem toString_append_inj {m n : Nat} {rest rest' : String}
    (hrest : ∀ c ∈ rest.toList.head?, c.isDigit = false)
    (hrest' : ∀ c ∈ rest'.toList.head?, c.isDigit = false)
    (h : toString m ++ rest = toString n ++ rest') : m = n ∧ rest = rest' := by
  have hlists := congrArg String.toList h
  rw [String.toList_append, String.toList_append, Nat.toString_eq_ofList_toDigits,
    Nat.toString_eq_ofList_toDigits, String.toList_ofList, String.toList_ofList] at hlists
  obtain ⟨hdigits, hlater⟩ := Text.append_inj_of_runs
    (fun _ hc => Nat.isDigit_of_mem_toDigits (by decide) (by decide) hc)
    (fun _ hc => Nat.isDigit_of_mem_toDigits (by decide) (by decide) hc) hrest hrest' hlists
  exact ⟨toDigits_inj hdigits, String.toList_inj.mp hlater⟩

theorem title_inj (h : title count index description = title count' index' description') :
    count = count' ∧ index = index' ∧ description = description' := by
  have hbetween (rest : String) : ∀ c ∈ (" of " ++ rest).toList.head?, c.isDigit = false := by
    rw [String.toList_append]
    exact fun c hc => (Option.some.inj hc) ▸ rfl
  have hcolon (rest : String) : ∀ c ∈ (": " ++ rest).toList.head?, c.isDigit = false := by
    rw [String.toList_append]
    exact fun c hc => (Option.some.inj hc) ▸ rfl
  simp only [title, String.append_assoc, String.append_right_inj] at h
  obtain ⟨hindex, hbehind⟩ := toString_append_inj (hbetween _) (hbetween _) h
  obtain ⟨hcount, hdescription⟩ :=
    toString_append_inj (hcolon _) (hcolon _) ((String.append_right_inj _).mp hbehind)
  exact ⟨hcount, Nat.succ.inj hindex, (String.append_right_inj _).mp hdescription⟩

theorem newline_notMem_title (h : '\n' ∉ description.toList) :
    '\n' ∉ (title count index description).toList := by
  have hphrases : '\n' ∉ "Step ".toList ∧ '\n' ∉ " of ".toList ∧ '\n' ∉ ": ".toList := by decide
  have hnumber (n : Nat) : '\n' ∉ (toString n).toList := (isLabel_toString n).newline_notMem
  simp only [title, String.toList_append, List.mem_append, not_or]
  exact ⟨⟨⟨⟨⟨hphrases.1, hnumber _⟩, hphrases.2.1⟩, hnumber _⟩, hphrases.2.2⟩, h⟩

theorem length_highlight (h : s.span.fits query.length) :
    (highlight .brackets s.span query).value.length = query.length + 2 := by
  obtain ⟨before, inside, after, hquery, -, -, hmarks⟩ := Span.exists_marksOut h
  have hmark : Marks.brackets.opening.length = 1 ∧ Marks.brackets.closing.length = 1 := by decide
  rw [hmarks, Logged.value_pure, hquery]
  simp only [String.length_append, hmark]
  omega

/-- Marked queries of the same length end at the same place, whatever is in them. -/
theorem body_inj {marked marked' : String} {rows rows' : Relation}
    (hlength : marked.length = marked'.length) (h : body marked rows = body marked' rows') :
    marked = marked' ∧ rows.grid = rows'.grid := by
  simp only [body, String.append_assoc, String.append_right_inj] at h
  have hlists : marked.toList ++ ("\n" ++ (rows.grid ++ "\n")).toList =
      marked'.toList ++ ("\n" ++ (rows'.grid ++ "\n")).toList := by
    simpa only [String.toList_append] using congrArg String.toList h
  obtain ⟨hmarked, htable⟩ := List.append_inj hlists hlength
  simp only [String.toList_inj, String.append_right_inj, String.append_left_inj] at htable
  exact ⟨String.toList_inj.mp hmarked, htable⟩

/-- A block of a query tells the number of the step and what it does, the marked query and the
table. -/
theorem stepBlock_inj (hs : '\n' ∉ s.description.toList) (hs' : '\n' ∉ s'.description.toList)
    (hfits : s.span.fits query.length) (hfits' : s'.span.fits query.length)
    (h : (stepBlock query count index s).value = (stepBlock query count' index' s').value) :
    count = count' ∧ index = index' ∧ s.description = s'.description ∧
      (highlight .brackets s.span query).value = (highlight .brackets s'.span query).value ∧
      s.rows.grid = s'.rows.grid := by
  have hinside {count index : Nat} {s : Step} (h : '\n' ∉ s.description.toList) :
      ∀ c ∈ (title count index s.description).toList, c != '\n' := fun c hc =>
    bne_iff_ne.mpr fun heq => newline_notMem_title h (heq ▸ hc)
  have hbreak (marked : String) (rows : Relation) :
      ∀ c ∈ (body marked rows).toList.head?, (c != '\n') = false := by
    simp only [body, String.append_assoc, String.toList_append]
    exact fun c hc => (Option.some.inj hc) ▸ rfl
  have hlists := congrArg String.toList h
  simp only [value_stepBlock, String.toList_append] at hlists
  obtain ⟨htitle, hbody⟩ :=
    Text.append_inj_of_runs (hinside hs) (hinside hs') (hbreak _ _) (hbreak _ _) hlists
  obtain ⟨hcount, hindex, hdescription⟩ := title_inj (String.toList_inj.mp htitle)
  have hlength := (length_highlight hfits).trans (length_highlight hfits').symm
  exact ⟨hcount, hindex, hdescription, body_inj hlength (String.toList_inj.mp hbody)⟩

section Run

/-- The block of a step of a query, in which the part of the step is marked without a note. -/
theorem getElem?_blocks_of_run (h : (RelTrace.run db query).value = .ok t)
    (hs : t.steps[index]? = some s) :
    ∃ before inside after, s.span.MarksOut query before inside after ∧
      (blocks query t.steps)[index]? = some (title t.steps.length index s.description ++
        body (before ++ "⟦" ++ inside ++ "⟧" ++ after) s.rows) := by
  obtain ⟨before, inside, after, hmarks⟩ :=
    Span.exists_marksOut (span_of_run h (List.mem_of_getElem? hs)).2
  refine ⟨before, inside, after, hmarks, ?_⟩
  rw [blocks, List.getElem?_map, List.getElem?_zipIdx, hs]
  simp only [Option.map_some, value_stepBlock, hmarks.2.2.2, Logged.value_pure, Nat.zero_add]
  rfl

/-- No two steps of a query have the same block. -/
theorem block_inj_of_run (h : (RelTrace.run db query).value = .ok t) (hs : t.steps[index]? = some s)
    (hs' : t.steps[index']? = some s')
    (hblock : (blocks query t.steps)[index]? = (blocks query t.steps)[index']?) :
    index = index' := by
  have hline {s : Step} (hs : s ∈ t.steps) : '\n' ∉ s.description.toList := fun hc =>
    absurd (isUnbroken_description_of_run h hs _ hc) (by decide)
  rw [blocks, List.getElem?_map, List.getElem?_map, List.getElem?_zipIdx, List.getElem?_zipIdx, hs,
    hs'] at hblock
  have hmem := List.mem_of_getElem? hs
  have hmem' := List.mem_of_getElem? hs'
  obtain ⟨-, hindex, -⟩ := stepBlock_inj (hline hmem) (hline hmem') (span_of_run h hmem).2
    (span_of_run h hmem').2 (Option.some.inj hblock)
  rwa [Nat.zero_add, Nat.zero_add] at hindex

end Run

end RelTrace.Command
