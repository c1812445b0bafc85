import RelTrace.Proofs.Query.RoundTrip
import RelTrace.Proofs.Text.Lines

/-!
# Outlines

The outline of a well-formed tree has a line for each node, and the line shows the depth and the
heading of the node: a heading begins with no space and contains no end of a line. The first
character of a heading tells the kind of the node and thereby how many operands follow, so that the
headings in preorder, and with them the outline, determine the tree up to spans.

## Main definitions

* `Expr.headings`: the headings of the nodes in preorder.
* `indentation`: the number of spaces that a line begins with.
-/

namespace RelTrace

open Token

/-- The number of spaces that a line begins with. -/
def indentation (line : String) : Nat := (line.toList.takeWhile (· == ' ')).length

namespace Expr

/-- A line of the outline without its end. -/
def outlineEntry (depth : Nat) (e : Expr) : String :=
  String.ofList (List.replicate (2 * depth) ' ') ++ e.heading

/-- The headings of the nodes in preorder. -/
def headings : Expr → List String
  | relation name s => [heading (relation name s)]
  | project attributes e s => heading (project attributes e s) :: e.headings
  | select condition e s => heading (select condition e s) :: e.headings
  | union l r s => heading (union l r s) :: (l.headings ++ r.headings)
  | join condition l r s => heading (join condition l r s) :: (l.headings ++ r.headings)

variable {e e' : Expr}

theorem map_heading_preorder (depth : Nat) (e : Expr) :
    (e.preorder depth).map (fun (_, node) => node.heading) = e.headings := by
  induction e generalizing depth with
  | relation => rfl
  | project _ _ _ ih | select _ _ _ ih => simp [preorder, headings, ih]
  | union _ _ _ ihl ihr | join _ _ _ _ ihl ihr => simp [preorder, headings, ihl, ihr]

@[simp] theorem length_preorder (depth : Nat) (e : Expr) :
    (e.preorder depth).length = e.nodeCount := by
  induction e generalizing depth with
  | relation => rfl
  | project _ _ _ ih | select _ _ _ ih =>
    simp only [preorder, nodeCount, List.length_cons, ih]
    omega
  | union _ _ _ ihl ihr | join _ _ _ _ ihl ihr =>
    simp only [preorder, nodeCount, List.length_cons, List.length_append, ihl, ihr]
    omega

/-- The nodes below a well-formed tree are well formed. -/
theorem WellFormed.of_mem_preorder {depth : Nat} {node : Nat × Expr} (h : e.WellFormed)
    (hnode : node ∈ e.preorder depth) : node.2.WellFormed := by
  induction e generalizing depth with
  | relation =>
    obtain rfl := List.mem_singleton.mp hnode
    exact h
  | project _ _ _ ih | select _ _ _ ih =>
    rcases List.mem_cons.mp hnode with rfl | hnode
    · exact h
    · exact ih h.2 hnode
  | union _ _ _ ihl ihr =>
    rcases List.mem_cons.mp hnode with rfl | hnode
    · exact h
    · rcases List.mem_append.mp hnode with hnode | hnode
      · exact ihl h.1 hnode
      · exact ihr h.2 hnode
  | join _ _ _ _ ihl ihr =>
    rcases List.mem_cons.mp hnode with rfl | hnode
    · exact h
    · rcases List.mem_append.mp hnode with hnode | hnode
      · exact ihl h.2.1 hnode
      · exact ihr h.2.2 hnode

/-- The sign before the heading of a node that is not a relation. -/
def sign? : Expr → Option Char
  | relation _ _ => none
  | project _ _ _ => some 'π'
  | select _ _ _ => some 'σ'
  | union _ _ _ => some '∪'
  | join _ _ _ _ => some '⋈'

theorem head?_heading_of_sign? {c : Char} (h : e.sign? = some c) :
    e.heading.toList.head? = some c := by
  cases e with
  | relation => cases h
  | union =>
    obtain rfl := Option.some.inj h
    exact congrArg List.head? (show "∪".toList = ['∪'] from rfl)
  | project | select | join =>
    obtain rfl := Option.some.inj h
    simp [heading]

/-- A heading begins with the sign of its node, or else with the character of a name. -/
theorem WellFormed.sign?_eq (h : e.WellFormed) :
    e.sign? = e.heading.toList.head?.filter fun c => !isIdentifierChar c := by
  cases e with
  | relation name =>
    cases hname : name.toList.head? with
    | none => simp [heading, hname, sign?]
    | some c =>
      have hc := h.2.2 c (List.mem_of_mem_head? hname)
      simp [heading, hname, sign?, Option.filter, hc]
  | project | select | union | join =>
    rw [head?_heading_of_sign? rfl]
    rfl

theorem WellFormed.operator_eq_of_heading_eq (h : e.WellFormed) (h' : e'.WellFormed)
    (heq : e.heading = e'.heading) : e.operator = e'.operator := by
  have hsign : e.sign? = e'.sign? := by rw [h.sign?_eq, heq, h'.sign?_eq]
  cases e <;> cases e' <;> first | rfl | simp [sign?] at hsign

theorem WellFormed.head?_heading (h : e.WellFormed) :
    ∀ c ∈ e.heading.toList.head?, (c == ' ') = false := by
  intro c hc
  cases e with
  | relation name =>
    have hidentifier := h.2.2 c (List.mem_of_mem_head? hc)
    exact beq_false_of_ne fun hspace => absurd (hspace ▸ hidentifier) (by decide)
  | project | select | union | join =>
    rw [head?_heading_of_sign? rfl] at hc
    obtain rfl := Option.some.inj hc
    rfl

/-- The characters of headings are those of tokens, and spaces. -/
theorem WellFormed.isKept_of_mem_heading {c : Char} (h : e.WellFormed)
    (hc : c ∈ e.heading.toList) : isKept c ∨ c = ' ' := by
  have hsign {s : String} (hs : s.toList.all fun c => isKept c || c == ' ')
      (hc : c ∈ s.toList) : isKept c ∨ c = ' ' := by
    simpa using List.all_eq_true.mp hs c hc
  cases e with
  | relation name => exact .inl (h.isKept c hc)
  | project attributes =>
    rw [heading, String.toList_append, String.toList_append, List.mem_append,
      List.mem_append] at hc
    rcases hc with (hc | hc) | hc
    · exact hsign (by decide) hc
    · by_cases hseparator : c ∈ ", ".toList
      · exact hsign (by decide) hseparator
      · obtain ⟨name, hname, hc⟩ := (Text.mem_intercalate hseparator).mp hc
        exact .inl ((h.1 name hname).isKept c hc)
    · exact hsign (by decide) hc
  | union =>
    rw [heading] at hc
    exact hsign (by decide) hc
  | select condition | join condition =>
    rw [heading, String.toList_append, List.mem_append] at hc
    rcases hc with hc | hc
    · exact hsign (by decide) hc
    · exact .inl (h.1 c hc).1

/-- Canonical texts tell well-formed trees apart. -/
theorem WellFormed.eraseSpans_eq_of_canonical_eq (h : e.WellFormed) (h' : e'.WellFormed)
    (heq : e.canonical = e'.canonical) : e.eraseSpans = e'.eraseSpans := by
  obtain ⟨u, hu, hueq⟩ := h.compile_canonical
  obtain ⟨u', hu', hueq'⟩ := h'.compile_canonical
  obtain rfl : u = u' := by
    rw [heq, hu'] at hu
    exact (Except.ok.inj hu).symm
  exact hueq.symm.trans hueq'

/-- Different lists of names are written differently. -/
theorem eq_of_intercalate_eq {names names' : List String} (h : ∀ a ∈ names, IsName a)
    (h' : ∀ a ∈ names', IsName a) (heq : ", ".intercalate names = ", ".intercalate names') :
    names = names' := by
  -- As attributes of a projection the names are read back from its canonical text.
  let operand := relation "a" ⟨0, 0⟩
  have hname : IsName "a" := by decide
  have hoperand : operand.WellFormed := hname
  have hcanonical : (project names operand ⟨0, 0⟩).canonical =
      (project names' operand ⟨0, 0⟩).canonical := by
    simp only [canonical, heq]
  have hwf : (project names operand ⟨0, 0⟩).WellFormed := ⟨h, hoperand⟩
  have hwf' : (project names' operand ⟨0, 0⟩).WellFormed := ⟨h', hoperand⟩
  exact (project.inj (hwf.eraseSpans_eq_of_canonical_eq hwf' hcanonical)).1

theorem exists_headings_eq_cons (e : Expr) : ∃ later, e.headings = e.heading :: later := by
  cases e <;> exact ⟨_, rfl⟩

theorem WellFormed.root_eq (h : e.WellFormed) (h' : e'.WellFormed) {rest rest' : List String}
    (heq : e.headings ++ rest = e'.headings ++ rest') :
    e.heading = e'.heading ∧ e.operator = e'.operator := by
  obtain ⟨later, hlater⟩ := e.exists_headings_eq_cons
  obtain ⟨later', hlater'⟩ := e'.exists_headings_eq_cons
  rw [hlater, hlater'] at heq
  have hheading := (List.cons.inj heq).1
  exact ⟨hheading, h.operator_eq_of_heading_eq h' hheading⟩

/-- The headings of a tree tell where they end and which tree they are of. -/
theorem WellFormed.eraseSpans_eq_of_headings_append_eq (h : e.WellFormed) (h' : e'.WellFormed)
    {rest rest' : List String} (heq : e.headings ++ rest = e'.headings ++ rest') :
    e.eraseSpans = e'.eraseSpans ∧ rest = rest' := by
  induction e generalizing e' rest rest' with
  | relation name span =>
    obtain ⟨hheading, hoperator⟩ := h.root_eq h' heq
    cases e' with
    | relation name' span' =>
      obtain ⟨rfl, hrest⟩ := List.cons.inj heq
      exact ⟨rfl, hrest⟩
    | _ => exact nomatch hoperator
  | project attributes e span ih =>
    obtain ⟨hheading, hoperator⟩ := h.root_eq h' heq
    cases e' with
    | project attributes' e' span' =>
      simp only [heading, String.append_left_inj, String.append_right_inj] at hheading
      obtain rfl := eq_of_intercalate_eq h.1 h'.1 hheading
      obtain ⟨herase, hrest⟩ := ih h.2 h'.2 (List.cons.inj heq).2
      rw [eraseSpans_project, eraseSpans_project, herase]
      exact ⟨rfl, hrest⟩
    | _ => exact nomatch hoperator
  | select condition e span ih =>
    obtain ⟨hheading, hoperator⟩ := h.root_eq h' heq
    cases e' with
    | select condition' e' span' =>
      obtain rfl := (String.append_right_inj _).mp hheading
      obtain ⟨herase, hrest⟩ := ih h.2 h'.2 (List.cons.inj heq).2
      rw [eraseSpans_select, eraseSpans_select, herase]
      exact ⟨rfl, hrest⟩
    | _ => exact nomatch hoperator
  | union l r span ihl ihr =>
    obtain ⟨hheading, hoperator⟩ := h.root_eq h' heq
    cases e' with
    | union l' r' span' =>
      have hoperands : l.headings ++ r.headings ++ rest = l'.headings ++ r'.headings ++ rest' :=
        (List.cons.inj heq).2
      rw [List.append_assoc, List.append_assoc] at hoperands
      obtain ⟨hl, hoperands⟩ := ihl h.1 h'.1 hoperands
      obtain ⟨hr, hrest⟩ := ihr h.2 h'.2 hoperands
      rw [eraseSpans_union, eraseSpans_union, hl, hr]
      exact ⟨rfl, hrest⟩
    | _ => exact nomatch hoperator
  | join condition l r span ihl ihr =>
    obtain ⟨hheading, hoperator⟩ := h.root_eq h' heq
    cases e' with
    | join condition' l' r' span' =>
      obtain rfl := (String.append_right_inj _).mp hheading
      have hoperands : l.headings ++ r.headings ++ rest = l'.headings ++ r'.headings ++ rest' :=
        (List.cons.inj heq).2
      rw [List.append_assoc, List.append_assoc] at hoperands
      obtain ⟨hl, hoperands⟩ := ihl h.2.1 h'.2.1 hoperands
      obtain ⟨hr, hrest⟩ := ihr h.2.2 h'.2.2 hoperands
      rw [eraseSpans_join, eraseSpans_join, hl, hr]
      exact ⟨rfl, hrest⟩
    | _ => exact nomatch hoperator

theorem heading_mapSpans (f : Span → Span) (e : Expr) : (e.mapSpans f).heading = e.heading := by
  cases e <;> rfl

theorem preorder_mapSpans (f : Span → Span) (depth : Nat) (e : Expr) :
    (e.mapSpans f).preorder depth =
      (e.preorder depth).map fun (d, node) => (d, node.mapSpans f) := by
  induction e generalizing depth with
  | relation => rfl
  | project _ _ _ ih | select _ _ _ ih => simp [mapSpans, preorder, ih]
  | union _ _ _ ihl ihr | join _ _ _ _ ihl ihr => simp [mapSpans, preorder, ihl, ihr]

theorem outline_mapSpans (f : Span → Span) (e : Expr) : (e.mapSpans f).outline = e.outline := by
  rw [outline, preorder_mapSpans, List.map_map, outline]
  congr 2
  funext ⟨depth, node⟩
  simp only [Function.comp_apply, outlineLine, heading_mapSpans]

/-- The lines of the outline. -/
def outlineLines (e : Expr) : List String :=
  (e.preorder 0).map fun (depth, node) => outlineEntry depth node

theorem WellFormed.hasLines_outline (h : e.WellFormed) :
    Text.HasLines e.outline e.outlineLines := by
  constructor
  · rw [outline, Text.unlines, outlineLines, List.map_map]
    rfl
  · intro line hline hend
    obtain ⟨⟨depth, node⟩, hnode, rfl⟩ := List.mem_map.mp hline
    simp only [outlineEntry, String.toList_append, String.toList_ofList, List.mem_append] at hend
    rcases hend with hend | hend
    · exact absurd (List.eq_of_mem_replicate hend) (by decide)
    · exact absurd ((h.of_mem_preorder hnode).isKept_of_mem_heading hend) (by decide)

section Lines

variable (h : e.WellFormed) (depth : Nat)
include h

theorem WellFormed.indentation_outlineEntry : indentation (outlineEntry depth e) = 2 * depth := by
  rw [indentation, outlineEntry, String.toList_append, String.toList_ofList,
    Text.takeWhile_append_of_head? (by simp) h.head?_heading, List.length_replicate]

/-- The heading is what a line has behind its indentation. -/
theorem WellFormed.dropWhile_outlineEntry :
    String.ofList ((outlineEntry depth e).toList.dropWhile (· == ' ')) = e.heading := by
  rw [outlineEntry, String.toList_append, String.toList_ofList,
    Text.dropWhile_append_of_head? (by simp) h.head?_heading, String.ofList_toList]

theorem WellFormed.map_indentation_outlineLines :
    e.outlineLines.map indentation = (e.preorder 0).map fun (depth, _) => 2 * depth := by
  rw [outlineLines, List.map_map]
  exact List.map_congr_left fun node hnode =>
    (h.of_mem_preorder hnode).indentation_outlineEntry node.1

theorem WellFormed.map_dropWhile_outlineLines :
    (e.outlineLines.map fun line => String.ofList (line.toList.dropWhile (· == ' '))) =
      e.headings := by
  rw [outlineLines, List.map_map, ← map_heading_preorder 0]
  exact List.map_congr_left fun node hnode =>
    (h.of_mem_preorder hnode).dropWhile_outlineEntry node.1

end Lines

theorem WellFormed.outline_eq_iff (h : e.WellFormed) (h' : e'.WellFormed) :
    e.outline = e'.outline ↔ e.eraseSpans = e'.eraseSpans := by
  constructor
  · intro heq
    have hlines : e.outlineLines = e'.outlineLines :=
      h.hasLines_outline.unique (heq ▸ h'.hasLines_outline)
    have hheadings : e.headings ++ [] = e'.headings ++ [] := by
      rw [← h.map_dropWhile_outlineLines, hlines, h'.map_dropWhile_outlineLines]
    exact (h.eraseSpans_eq_of_headings_append_eq h' hheadings).1
  · intro herase
    rw [← outline_mapSpans (fun _ => ⟨0, 0⟩) e, ← outline_mapSpans (fun _ => ⟨0, 0⟩) e']
    exact congrArg outline herase

end Expr

/-- Well-formed trees have the same outline exactly if they are equal up to spans, that is, if they
have the same canonical text. The outline has a line for each node in preorder, indented by twice
the depth of the node. -/
theorem outline_determines_tree {e e' : Expr} (h : e.WellFormed) (h' : e'.WellFormed) :
    (e.outline = e'.outline ↔ e.eraseSpans = e'.eraseSpans) ∧
      (e.eraseSpans = e'.eraseSpans ↔ e.canonical = e'.canonical) ∧
      ∃ lines, Text.HasLines e.outline lines ∧ lines.length = e.nodeCount ∧
        lines.map indentation = (e.preorder 0).map fun (depth, _) => 2 * depth := by
  refine ⟨h.outline_eq_iff h', ?_, e.outlineLines, h.hasLines_outline, ?_,
    h.map_indentation_outlineLines⟩
  · exact ⟨Expr.canonical_eq_of_eraseSpans_eq, h.eraseSpans_eq_of_canonical_eq h'⟩
  · rw [Expr.outlineLines, List.length_map, Expr.length_preorder]

theorem outline_determines_tree_unions :
    let a : Expr := .relation "A" ⟨1, 2⟩
    let b : Expr := .project ["x", "y"] (.relation "B" ⟨12, 13⟩) ⟨5, 14⟩
    let c : Expr := .join "" (.relation "C" ⟨18, 19⟩) (.relation "D" ⟨25, 26⟩) ⟨18, 26⟩
    let e : Expr := .union (.union a b ⟨1, 14⟩) c ⟨1, 26⟩
    let e' : Expr := .union a (.union b c ⟨5, 26⟩) ⟨1, 26⟩
    e.WellFormed ∧ e'.WellFormed ∧ e.outline ≠ e'.outline ∧
      ∃ lines, Text.HasLines e.outline lines ∧ lines.length = 8 ∧
        lines.map indentation = [0, 2, 4, 4, 6, 2, 4, 4] := by
  intro a b c e e'
  have h : e.WellFormed := by decide
  have h' : e'.WellFormed := by decide
  obtain ⟨houtline, -, lines, hlines, hlength, hindentation⟩ := outline_determines_tree h h'
  refine ⟨h, h', fun heq => ?_, lines, hlines, hlength, hindentation⟩
  exact absurd (houtline.mp heq) (by decide)

end RelTrace
