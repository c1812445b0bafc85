import RelTrace.Proofs.Trace.Depiction

/-!
# What labels show

The label of a node is a caption and then what its step does and how many rows came out. The
caption numbers the step in the diagram of the whole trace, and it tells the operands of a step
apart in the diagram of that step. Nothing that a step of a query does contains a quotation mark,
so nothing in a label is escaped, and the label tells what the node shows.

## Main definitions

* `Step.shown`: what a label shows of a step, behind the caption.
* `Operator.captions`: the captions of the operands of a step.
-/

namespace RelTrace

/-- What a label shows of a step: what it does, and behind the sign for a line break the number of
its rows. -/
def Step.shown (s : Step) : String :=
  s.description ++ "\\n" ++ toString s.rows.length ++ " rows"

/-- The captions of the operands, the left one first. -/
def Operator.captions : Operator → List String
  | relation => []
  | projection | selection => ["Previous: "]
  | union | join => ["Left: ", "Right: "]

namespace GraphNode

variable {node node' : GraphNode} {caption : String}

theorem flatMap_escapeQuote_of_notMem {cs : List Char} (h : '"' ∉ cs) :
    cs.flatMap escapeQuote = cs := by
  have hplain : cs.flatMap escapeQuote = cs.flatMap fun c => [c] :=
    List.flatMap_congr fun c hc => if_neg (ne_of_mem_of_not_mem hc h)
  rw [hplain, List.flatMap_singleton']

/-- An entity can be told from the other characters by its first one. -/
theorem flatMap_escapeQuote_inj {cs ds : List Char} (hcs : '#' ∉ cs) (hds : '#' ∉ ds)
    (h : cs.flatMap escapeQuote = ds.flatMap escapeQuote) : cs = ds := by
  have hentity : escapeQuote '"' = '#' :: "quot;".toList := by decide
  have hplain {c : Char} (hc : c ≠ '"') : escapeQuote c = [c] := if_neg hc
  induction cs generalizing ds with
  | nil =>
    cases ds with
    | nil => rfl
    | cons d ds => by_cases hd : d = '"' <;> simp_all
  | cons c cs ih =>
    obtain ⟨hc, hcs⟩ : '#' ≠ c ∧ '#' ∉ cs := by simpa using hcs
    cases ds with
    | nil => by_cases hc : c = '"' <;> simp_all
    | cons d ds =>
      obtain ⟨hd, hds⟩ : '#' ≠ d ∧ '#' ∉ ds := by simpa using hds
      rw [List.flatMap_cons, List.flatMap_cons] at h
      by_cases hcquote : c = '"' <;> by_cases hdquote : d = '"'
      · rw [hcquote, hdquote, List.append_cancel_left_eq] at h
        rw [hcquote, hdquote, ih hcs hds h]
      · rw [hcquote, hentity, hplain hdquote] at h
        exact absurd (List.cons.inj h).1 hd
      · rw [hdquote, hentity, hplain hcquote] at h
        exact absurd (List.cons.inj h).1.symm hc
      · rw [hplain hcquote, hplain hdquote] at h
        obtain ⟨hhead, htail⟩ := List.cons.inj h
        rw [hhead, ih hcs hds htail]

/-- A number at the end can be told where something else stands before it. -/
theorem append_toString_inj {front front' : String} {m n : Nat}
    (h : front ++ "\\n" ++ toString m = front' ++ "\\n" ++ toString n) :
    front = front' ∧ m = n := by
  have hdigit {k : Nat} : ∀ c ∈ (Nat.toDigits 10 k).reverse, c.isDigit := fun c hc =>
    Nat.isDigit_of_mem_toDigits (by decide) (by decide) (List.mem_reverse.mp hc)
  have hbreak (front : String) :
      ∀ c ∈ (front ++ "\\n").toList.reverse.head?, c.isDigit = false := by
    rw [String.toList_append, List.reverse_append]
    exact fun c hc => (Option.some.inj hc) ▸ rfl
  have hlists : (Nat.toDigits 10 m).reverse ++ (front ++ "\\n").toList.reverse =
      (Nat.toDigits 10 n).reverse ++ (front' ++ "\\n").toList.reverse := by
    rw [← List.reverse_append, ← List.reverse_append]
    refine congrArg List.reverse ?_
    simpa only [String.toList_append, Nat.toString_eq_ofList_toDigits, String.toList_ofList] using
      congrArg String.toList h
  obtain ⟨hdigits, hfront⟩ :=
    Text.append_inj_of_runs hdigit hdigit (hbreak _) (hbreak _) hlists
  exact ⟨(String.append_left_inj _).mp (String.toList_inj.mp (List.reverse_inj.mp hfront)),
    toDigits_inj (List.reverse_inj.mp hdigits)⟩

/-- A label is unescaped where the description has no quotation marks. -/
theorem label_eq_of_notMem (h : '"' ∉ node.description.toList) (caption : String) :
    node.label caption =
      caption ++ (node.description ++ "\\n" ++ toString node.rowCount ++ " rows") := by
  rw [label, flatMap_escapeQuote_of_notMem h, String.ofList_toList]
  simp only [String.append_assoc]

/-- The number of rows can be told from the end of a label, and so can what stands before it. -/
theorem label_inj (h : '#' ∉ node.description.toList) (h' : '#' ∉ node'.description.toList)
    (hlabel : node.label caption = node'.label caption) :
    node.description = node'.description ∧ node.rowCount = node'.rowCount := by
  rw [label, label, String.append_left_inj] at hlabel
  obtain ⟨hfront, hcount⟩ := append_toString_inj hlabel
  have hescaped := String.ofList_inj.mp ((String.append_right_inj _).mp hfront)
  exact ⟨String.toList_inj.mp (flatMap_escapeQuote_inj h h' hescaped), hcount⟩

end GraphNode

section Query

variable {db : Lookup} {query : String} {t : Trace} {s : Step} {ls : List DiagramLine}

/-- Neither quotation marks nor the sign that begins an entity occur in what a step does. -/
theorem notMem_description_of_run (h : (run db query).value = .ok t) (hs : s ∈ t.steps) :
    '"' ∉ s.description.toList ∧ '#' ∉ s.description.toList := by
  have hkept : Token.isKept '"' = false ∧ Token.isKept '#' = false := by decide
  have hphrases : ∀ phrase ∈ Expr.phrases, '"' ∉ phrase.toList ∧ '#' ∉ phrase.toList := by decide
  constructor
  · intro hc
    rcases isKept_or_mem_phrases_of_run h hs hc with hc | ⟨phrase, hmem, hc⟩
    · exact absurd hc (by simp [hkept])
    · exact (hphrases phrase hmem).1 hc
  · intro hc
    rcases isKept_or_mem_phrases_of_run h hs hc with hc | ⟨phrase, hmem, hc⟩
    · exact absurd hc (by simp [hkept])
    · exact (hphrases phrase hmem).2 hc

/-- Nothing is escaped in the labels of a query. -/
theorem label_of_run (h : (run db query).value = .ok t) (hs : s ∈ t.steps) (caption : String) :
    s.graphNode.label caption = caption ++ s.shown :=
  GraphNode.label_eq_of_notMem (notMem_description_of_run h hs).1 caption

/-- The diagram of a whole trace declares the steps in order. Each label numbers its step, and the
current one is marked. -/
theorem declared_traceGraph (h : (run db query).value = .ok t) {current : Nat}
    (hls : IsDiagram (traceGraph t.nodes current) ls) :
    declared ls = t.steps.zipIdx.map fun (s, j) =>
      (j, GraphNode.traceCaption current j ++ s.shown) := by
  have hlabels := (depictsTrace_traceLines h current).declares.isLabel
  rw [traceGraph_eq] at hls
  rw [(isDiagram_unlines fun entry => hlabels _ _).iff_eq.mp hls, declared_traceLines, Trace.nodes,
    List.zipIdx_map, List.map_map]
  refine List.map_congr_left fun entry hentry => ?_
  exact congrArg (entry.2, ·) (label_of_run h (List.fst_mem_of_mem_zipIdx hentry) _)

/-- The operands of a step of a query have the captions of its operator. -/
theorem operandCaptions_of_run (h : (run db query).value = .ok t) (hs : s ∈ t.steps) :
    s.inputs.length = s.operator.captions.length ∧
      s.inputs.zip s.graphNode.operandCaptions = s.inputs.zip s.operator.captions := by
  obtain ⟨e, -, heval⟩ := run_eq_ok_iff.mp h
  obtain ⟨j, hj⟩ := List.mem_iff_getElem?.mp hs
  obtain ⟨node, d, i, -, hstep⟩ := Expr.exists_stepAt heval hj
  rw [hstep]
  cases node <;> exact ⟨rfl, rfl⟩

/-- The diagram of a step declares its operands in order, with captions that tell them apart, and
then the step itself without a caption. -/
theorem declared_stepGraph (h : (run db query).value = .ok t) {index : Nat}
    (hs : t.steps[index]? = some s) {text : String} (htext : stepGraph? t.nodes index = some text)
    (hls : IsDiagram text ls) :
    List.Forall₂ (fun entry operand => entry.1 = operand.1 ∧
        ∃ s', t.steps[operand.1]? = some s' ∧ entry.2 = operand.2 ++ s'.shown)
      (declared ls) (s.inputs.zip s.operator.captions ++ [(index, "")]) := by
  obtain ⟨e, -, heval⟩ := run_eq_ok_iff.mp h
  have hinputs : ∀ i ∈ s.inputs, ∃ operand, t.steps[i]? = some operand := by
    intro i hi
    obtain ⟨-, operand, hoperand, -⟩ := (evaluate_hasShapeOf heval).input hs hi
    exact ⟨operand, hoperand⟩
  have hbound : ∀ i ∈ s.graphNode.inputs, i < t.nodes.length := by
    intro i hi
    obtain ⟨operand, hoperand⟩ := hinputs i hi
    rw [Trace.nodes, List.length_map]
    exact (List.getElem?_eq_some_iff.mp hoperand).1
  rw [stepGraph?_eq (Trace.getElem?_nodes_eq_some.mpr ⟨s, hs, rfl⟩) hbound] at htext
  obtain rfl := Option.some.inj htext
  have hlabels := (depictsStep_stepLines h hs).declares.isLabel
  rw [(isDiagram_unlines fun entry => hlabels _ _).iff_eq.mp hls, declared_stepLines]
  have hlabel {i : Nat} {operand : Step} (hoperand : t.steps[i]? = some operand)
      (caption : String) : operand.graphNode.label caption = caption ++ operand.shown :=
    label_of_run h (List.mem_of_getElem? hoperand) caption
  refine List.rel_append ?_ (.cons ⟨rfl, s, hs, hlabel hs ""⟩ .nil)
  rw [← (operandCaptions_of_run h (List.mem_of_getElem? hs)).2, List.forall₂_map_left_iff]
  refine List.forall₂_same.mpr ?_
  rintro ⟨i, caption⟩ hentry
  obtain ⟨operand, hoperand⟩ := hinputs i (List.of_mem_zip hentry).1
  refine ⟨rfl, operand, hoperand, ?_⟩
  change (t.nodes[i]?.getD s.graphNode).label caption = caption ++ operand.shown
  rw [Trace.getElem?_nodes_eq_some.mpr ⟨operand, hoperand, rfl⟩, Option.getD_some]
  exact hlabel hoperand caption

end Query

end RelTrace
