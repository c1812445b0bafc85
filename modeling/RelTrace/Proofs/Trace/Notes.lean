import RelTrace.Proofs.Condition.Reading
import RelTrace.Proofs.Trace.Failure

/-!
# The log of an evaluation

An evaluation goes through the nodes in post-order. Of each node it notes first what is missing
there, a relation or a comparison, and then its step. It stops at the first malformed join without
a note on it. The log is therefore the post-order up to that join, and it counts the same steps as
the trace if there is one.

## Main definitions

* `Expr.reached`: the nodes that come before the first malformed join.
* `Expr.remarks`: the notes on what is missing at a node.
* `Expr.notesOn`: all notes on some nodes, one node after another.
* `Note.isStep`: the notes on steps.
-/

namespace RelTrace

namespace Evaluation

variable {α β : Type} {x : Evaluation α} {f : α → Evaluation β}

theorem notes_run_bind_of_ok {a : α} (h : x.run.value = .ok a) :
    (x >>= f).run.notes = x.run.notes ++ (f a).run.notes := by
  rw [ExceptT.run_bind, Logged.notes_bind, h]

/-- What comes after a failure makes no notes. -/
theorem notes_run_bind_of_error {err : MalformedJoin} (h : x.run.value = .error err) :
    (x >>= f).run.notes = x.run.notes := by
  rw [ExceptT.run_bind, Logged.notes_bind, h]
  exact List.append_nil _

@[simp] theorem notes_run_lift (x : Logged α) : (liftM x : Evaluation α).run.notes = x.notes :=
  List.append_nil _

@[simp] theorem notes_run_record (earlier : List Step) (index : Nat) (s : Step) :
    (record earlier index s).run.notes = [⟨.debug, s.summary index⟩] := rfl

@[simp] theorem notes_run_readJoin (condition : String) (span : Span) :
    (readJoin condition span).run.notes = [] := by
  unfold readJoin
  cases joinAttributes? condition <;> rfl

end Evaluation

/-- The note is about the step of a node. -/
def Note.isStep (n : Note) : Bool := n.level = .debug && "step ".toList.isPrefixOf n.text.toList

open Evaluation

namespace Expr

/-- The node is no malformed join. -/
def isSound (node : Nat × Expr) : Bool := node.2.malformed?.isNone

/-- The nodes before the first malformed join, in post-order. -/
def reached (depth : Nat) (e : Expr) : List (Nat × Expr) := (e.postorder depth).takeWhile isSound

/-- The notes on what is missing at a node: the relation of a name, or a comparison in the condition
of a selection. -/
def remarks (db : Lookup) : Expr → List Note
  | relation name _ =>
    if (db name).isNone then
      [⟨.warn, "unknown relation " ++ Text.quote name ++ ", using an empty relation"⟩]
    else []
  | select condition _ _ =>
    if ∀ c ∈ Comparator.searchOrder, ¬ c.IsFound condition then
      [⟨.debug, "condition " ++ Text.quote condition ++
        " has no comparison operator, passing all rows"⟩]
    else []
  | _ => []

/-- The note on the step of a node. -/
def stepNote (db : Lookup) (depth index : Nat) (e : Expr) : Note :=
  ⟨.debug, (e.stepAt db depth index).summary index⟩

/-- The notes on nodes that stand one after another, from a place on. -/
def notesOn (db : Lookup) (index : Nat) (nodes : List (Nat × Expr)) : List Note :=
  (nodes.zipIdx index).flatMap fun ((depth, node), i) =>
    node.remarks db ++ [node.stepNote db depth i]

section Notes

variable (db : Lookup) (depth index : Nat)

theorem notesOn_append (nodes later : List (Nat × Expr)) :
    notesOn db index (nodes ++ later) =
      notesOn db index nodes ++ notesOn db (index + nodes.length) later := by
  simp [notesOn, List.zipIdx_append]

theorem notesOn_singleton (e : Expr) :
    notesOn db index [(depth, e)] = e.remarks db ++ [e.stepNote db depth index] := by
  simp [notesOn]

variable {db} {e : Expr} {rows : Relation}

/-- The note on a step counts the rows that the node means. -/
theorem summary_stepAt (h : e.denote db = .ok rows) :
    (e.stepAt db depth index).summary index = "step " ++ toString index ++ ": " ++ e.description ++
      " -> " ++ toString rows.length ++ " rows" := by
  rw [stepAt_eq h]
  rfl

end Notes

section Reached

variable {db : Lookup} {e : Expr} {rows : Relation} {err : MalformedJoin} {depth : Nat}

theorem isSound_of_mem_reached {node : Nat × Expr} (h : node ∈ e.reached depth) : isSound node :=
  List.mem_takeWhile_imp h

/-- A tree with a meaning has no malformed join. -/
theorem isSound_of_mem_postorder (h : e.denote db = .ok rows) :
    ∀ node ∈ e.postorder depth, isSound node := by
  have hnone : e.failure? db = none := by rw [failure?, h]
  rw [failure?_eq_findSome? db depth, List.findSome?_eq_none_iff] at hnone
  intro node hnode
  rw [isSound, hnone node hnode]
  rfl

theorem reached_of_denote (h : e.denote db = .ok rows) : e.reached depth = e.postorder depth :=
  List.takeWhile_eq_self_iff.mpr (isSound_of_mem_postorder h)

/-- What is not reached begins with the join that the error is about. -/
theorem exists_unreached (depth : Nat) (h : e.denote db = .error err) :
    ∃ node after, e.postorder depth = e.reached depth ++ node :: after ∧ err.ArisesAt node.2 := by
  have hsome : e.failure? db = some err := by rw [failure?, h]
  rw [failure?_eq_findSome? db depth, List.findSome?_eq_some_iff] at hsome
  obtain ⟨before, node, after, heq, hnode, hbefore⟩ := hsome
  have hstop : isSound node = false := by rw [isSound, hnode]; rfl
  have hreached : e.reached depth = before := by
    rw [reached, heq]
    refine Text.takeWhile_append_of_head? (fun earlier hearlier => ?_) ?_
    · rw [isSound, hbefore earlier hearlier]
      rfl
    · simpa using hstop
  exact ⟨node, after, by rw [hreached, heq], malformed?_eq_some_iff.mp hnode⟩

/-- The nodes below one that is reached come before it. -/
theorem postorder_subset_reached {node : Nat × Expr} (h : node ∈ e.reached depth) :
    node.2.postorder node.1 ⊆ e.reached depth := by
  obtain ⟨after, hprefix⟩ : e.reached depth <+: e.postorder depth := List.takeWhile_prefix isSound
  obtain ⟨j, hj⟩ := List.mem_iff_getElem?.mp h
  have hlt := (List.getElem?_eq_some_iff.mp hj).1
  have hplace : (e.postorder depth)[j]? = some node := by
    rw [← hprefix, List.getElem?_append_left hlt, hj]
  obtain ⟨d, start, hoccurs, hdepth, hstop⟩ := exists_occurs_of_getElem?_postorder hplace
  intro lower hlower
  obtain ⟨i, hi⟩ := List.mem_iff_getElem?.mp hlower
  have hcount := (List.getElem?_eq_some_iff.mp hi).1
  have hblock := (hoccurs.postorder depth).getElem? (hdepth ▸ hcount)
  rw [length_postorder] at hcount
  rw [← hdepth, hi, ← hprefix, List.getElem?_append_left (by omega)] at hblock
  exact List.mem_of_getElem? hblock

theorem denote_of_mem_reached (db : Lookup) {node : Nat × Expr} (h : node ∈ e.reached depth) :
    ∃ rows, node.2.denote db = .ok rows := by
  cases hmeans : node.2.denote db with
  | ok rows => exact ⟨rows, rfl⟩
  | error err =>
    obtain ⟨stop, after, heq, harises⟩ := exists_unreached node.1 hmeans
    have hmem : stop ∈ node.2.postorder node.1 := by
      rw [heq]
      exact List.mem_append_right _ List.mem_cons_self
    have hstop := isSound_of_mem_reached (postorder_subset_reached h hmem)
    rw [isSound, malformed?_eq_some_iff.mpr harises] at hstop
    cases hstop

/-- Nothing behind a tree without a meaning is reached. -/
theorem takeWhile_postorder_append_of_error (depth : Nat) (h : e.denote db = .error err)
    (later : List (Nat × Expr)) :
    (e.postorder depth ++ later).takeWhile isSound = e.reached depth := by
  obtain ⟨node, after, heq, harises⟩ := exists_unreached depth h
  have hstop : isSound node = false := by
    rw [isSound, malformed?_eq_some_iff.mpr harises]
    rfl
  rw [heq, List.append_assoc]
  refine Text.takeWhile_append_of_head? (fun _ => isSound_of_mem_reached) ?_
  simpa using hstop

end Reached

section Evaluation

variable {db : Lookup} {e : Expr} {rows : Relation} {err : MalformedJoin} {depth index : Nat}

theorem value_evaluateAt_of_denote (h : e.denote db = .ok rows) :
    (e.evaluateAt db depth index).run.value = .ok (e.expectedTrace db depth index) := by
  change e.traceAt db depth index = _
  rw [traceAt_eq, h, Except.map]

theorem value_evaluateAt_of_denote_eq_error (h : e.denote db = .error err) (depth index : Nat) :
    (e.evaluateAt db depth index).run.value = .error err := by
  change e.traceAt db depth index = _
  rw [traceAt_eq, h, Except.map]

theorem notes_lookUp (db : Lookup) (name : String) (span : Span) :
    (lookUp db name).run.notes = (relation name span).remarks db := by
  simp only [lookUp, remarks]
  cases db name <;> rfl

theorem notes_readLogged (db : Lookup) (condition : String) (e : Expr) (span : Span) :
    (Condition.readLogged condition).notes = (select condition e span).remarks db := by
  have hfound : (∀ c ∈ Comparator.searchOrder, ¬ c.IsFound condition) ↔
      Comparison.read? condition = none := by
    simp only [Comparison.read?_eq_none_iff, Comparator.mem_searchOrder, true_imp_iff]
  simp only [Condition.readLogged, remarks, hfound]
  cases Comparison.read? condition <;> rfl

/-- A step with the rows and the description of a node is noted as the step of that node. -/
theorem notes_record {s : Step} (h : e.denote db = .ok s.rows)
    (hdescription : s.description = e.description) (earlier : List Step) :
    (record earlier index s).run.notes = [e.stepNote db depth index] := by
  rw [notes_run_record, stepNote, summary_stepAt _ _ h, Step.summary, hdescription]

/-- The root of a tree with a meaning is noted behind its operands. -/
theorem notesOn_root (h : e.denote db = .ok rows) (depth index : Nat) :
    notesOn db index ([(depth, e)].takeWhile isSound) =
      e.remarks db ++ [e.stepNote db depth index] := by
  have hsound := isSound_of_mem_postorder h (depth, e) (e.mem_postorder_self depth)
  rw [List.takeWhile_cons_of_pos hsound, List.takeWhile_nil, notesOn_singleton]

/-- An operand is noted first, and if it has a meaning, what comes later is noted behind it. -/
theorem notes_operand {f : Trace → Evaluation Trace} {later : List (Nat × Expr)}
    (ih : (e.evaluateAt db depth index).run.notes = notesOn db index (e.reached depth))
    (hlater : ∀ rows, e.denote db = .ok rows → (f (e.expectedTrace db depth index)).run.notes =
      notesOn db (index + e.nodeCount) (later.takeWhile isSound)) :
    (e.evaluateAt db depth index >>= f).run.notes =
      notesOn db index ((e.postorder depth ++ later).takeWhile isSound) := by
  cases h : e.denote db with
  | error err =>
    rw [notes_run_bind_of_error (value_evaluateAt_of_denote_eq_error h _ _), ih,
      takeWhile_postorder_append_of_error _ h]
  | ok rows =>
    rw [notes_run_bind_of_ok (value_evaluateAt_of_denote h), ih, hlater rows h,
      List.takeWhile_append_of_pos (isSound_of_mem_postorder h), notesOn_append, length_postorder,
      reached_of_denote h]

/-- The notes of an evaluation are those on the nodes that it reaches. -/
theorem notes_evaluateAt (db : Lookup) (depth index : Nat) (e : Expr) :
    (e.evaluateAt db depth index).run.notes = notesOn db index (e.reached depth) := by
  -- the operands are evaluated one level deeper, the right one from the place after the left one
  induction e generalizing depth index with
  | relation name span =>
    have hmeans : (relation name span).denote db = .ok ((db name).getD []) := rfl
    rw [evaluateAt, notes_run_bind_of_ok (value_run_lookUp db name), notes_lookUp db name span,
      reached_of_denote hmeans, postorder, notesOn_singleton, stepNote, summary_stepAt _ _ hmeans]
    rfl
  | project attributes e span ih =>
    rw [evaluateAt, reached, postorder]
    refine notes_operand (ih _ _) fun rows h => ?_
    have hmeans := denote_project h attributes span
    dsimp only
    rw [notesOn_root hmeans, rows_expectedTrace h, add_length_earlier_expectedTrace,
      nodeCount_sub_one_add_one, notes_record hmeans rfl]
    rfl
  | select condition e span ih =>
    rw [evaluateAt, reached, postorder]
    refine notes_operand (ih _ _) fun rows h => ?_
    have hmeans := denote_select h condition span
    dsimp only
    rw [notesOn_root hmeans, rows_expectedTrace h, add_length_earlier_expectedTrace,
      nodeCount_sub_one_add_one, notes_run_bind_of_ok (value_run_lift _), notes_run_lift,
      Condition.value_readLogged, notes_readLogged db condition e span, notes_record hmeans rfl]
  | union l r span ihl ihr =>
    rw [evaluateAt, reached, postorder, List.append_assoc]
    refine notes_operand (ihl _ _) fun left hl => ?_
    simp only [add_length_earlier_expectedTrace, nodeCount_sub_one_add_one]
    refine notes_operand (ihr _ _) fun right hr => ?_
    have hmeans := denote_union hl hr span
    rw [notesOn_root hmeans, rows_expectedTrace hl, rows_expectedTrace hr,
      add_length_earlier_expectedTrace, nodeCount_sub_one_add_one, notes_record hmeans rfl]
    rfl
  | join condition l r span ihl ihr =>
    rw [evaluateAt, reached, postorder, List.append_assoc]
    refine notes_operand (ihl _ _) fun left hl => ?_
    simp only [add_length_earlier_expectedTrace, nodeCount_sub_one_add_one]
    refine notes_operand (ihr _ _) fun right hr => ?_
    cases hnames : joinAttributes? condition with
    | none =>
      have hroot : [(depth, join condition l r span)].takeWhile isSound = [] := by
        simp [isSound, malformed?_join, hnames]
      have hread : (readJoin condition span).run.value = .error ⟨condition, span⟩ := by
        rw [readJoin, hnames]
        rfl
      rw [hroot, notes_run_bind_of_error hread, notes_run_readJoin]
      rfl
    | some names =>
      have hmeans := denote_join hl hr hnames span
      have hread : (readJoin condition span).run.value = .ok names := by
        rw [readJoin, hnames]
        rfl
      rw [notesOn_root hmeans, notes_run_bind_of_ok hread, notes_run_readJoin,
        rows_expectedTrace hl, rows_expectedTrace hr, add_length_earlier_expectedTrace,
        nodeCount_sub_one_add_one, notes_record hmeans rfl]
      rfl

end Evaluation

section Steps

variable (db : Lookup) (depth index : Nat)

@[simp] theorem isStep_stepNote (e : Expr) : (e.stepNote db depth index).isStep := by
  simp [Note.isStep, stepNote, Step.summary]

theorem not_isStep_of_mem_remarks {e : Expr} {n : Note} (h : n ∈ e.remarks db) :
    n.isStep = false := by
  cases e with
  | relation name span =>
    simp only [remarks] at h
    split at h
    · obtain rfl := List.mem_singleton.mp h
      rfl
    · cases h
  | select condition e span =>
    simp only [remarks] at h
    split at h
    · obtain rfl := List.mem_singleton.mp h
      simp [Note.isStep, List.isPrefixOf]
    · cases h
  | project | union | join => cases h

theorem filter_isStep_notesOn (nodes : List (Nat × Expr)) :
    (notesOn db index nodes).filter Note.isStep =
      (nodes.zipIdx index).map fun ((depth, node), i) => node.stepNote db depth i := by
  have hnode (depth i : Nat) (e : Expr) :
      (e.remarks db ++ [e.stepNote db depth i]).filter Note.isStep = [e.stepNote db depth i] := by
    have hremarks : (e.remarks db).filter Note.isStep = [] := by
      simpa using fun n hn => not_isStep_of_mem_remarks db hn
    rw [List.filter_append, hremarks]
    simp
  rw [notesOn, List.filter_flatMap]
  simp only [hnode]
  exact List.map_eq_flatMap.symm

end Steps

end Expr

variable {db : Lookup} {e : Expr}

/-- The notes on steps are those of the trace, counted from zero. -/
theorem filter_isStep_of_evaluate {t : Trace} (h : (e.evaluate db).value = .ok t) :
    (Expr.notesOn db 0 (e.postorder 0)).filter Note.isStep =
      t.steps.zipIdx.map fun (s, k) => ⟨.debug, s.summary k⟩ := by
  rw [Expr.filter_isStep_notesOn, Expr.steps_of_evaluate h, Expr.stepsAt]
  apply List.ext_getElem?
  intro k
  simp only [List.getElem?_map, List.getElem?_zipIdx, Nat.zero_add]
  cases (e.postorder 0)[k]? <;> rfl

/-- The log of an evaluation is made of the notes on the nodes in post-order that come before the
first malformed join: what is missing at a node, and then its step, with its place, its description
and the number of rows that the node means. With a trace they are all nodes, and the notes on steps
are those of the trace. With an error, the error is about the first node that no note is made on. -/
theorem log_mirrors_postorder (db : Lookup) (e : Expr) :
    (e.evaluate db).notes = (e.reached 0).zipIdx.flatMap (fun ((depth, node), i) =>
        node.remarks db ++ [⟨.debug, (node.stepAt db depth i).summary i⟩]) ∧
      (∀ node ∈ e.reached 0, ∃ rows, node.2.denote db = .ok rows ∧
        ∀ i, (node.2.stepAt db node.1 i).summary i = "step " ++ toString i ++ ": " ++
          node.2.description ++ " -> " ++ toString rows.length ++ " rows") ∧
      (∀ t, (e.evaluate db).value = .ok t → e.reached 0 = e.postorder 0 ∧
        (e.evaluate db).notes.filter Note.isStep =
          t.steps.zipIdx.map fun (s, k) => ⟨.debug, s.summary k⟩) ∧
      ∀ err, (e.evaluate db).value = .error err → ∃ node after,
        e.postorder 0 = e.reached 0 ++ node :: after ∧ err.ArisesAt node.2 := by
  have hnotes : (e.evaluate db).notes = Expr.notesOn db 0 (e.reached 0) :=
    Expr.notes_evaluateAt db 0 0 e
  refine ⟨hnotes, fun node hnode => ?_, fun t ht => ?_, fun err herr => ?_⟩
  · obtain ⟨rows, hrows⟩ := Expr.denote_of_mem_reached db hnode
    exact ⟨rows, hrows, fun i => Expr.summary_stepAt node.1 i hrows⟩
  · have hreached : e.reached 0 = e.postorder 0 :=
      Expr.reached_of_denote (Expr.denote_of_evaluate ht)
    rw [hnotes, hreached]
    exact ⟨rfl, filter_isStep_of_evaluate ht⟩
  · cases hmeans : e.denote db with
    | ok rows => cases (Expr.evaluate_of_denote hmeans).symm.trans herr
    | error other =>
      have hother := Expr.value_evaluateAt_of_denote_eq_error hmeans 0 0
      obtain rfl : other = err := Except.error.inj (hother.symm.trans herr)
      exact Expr.exists_unreached 0 hmeans

theorem log_mirrors_postorder_unreached :
    let db : Lookup := fun name => if name = "R" then some [.ofList [("a", .text "x")]] else none
    let l : Expr := .select "old" (.relation "M" ⟨7, 8⟩) ⟨0, 9⟩
    let e : Expr := .union (.join "a" l (.relation "R" ⟨16, 17⟩) ⟨0, 17⟩)
      (.relation "N" ⟨20, 21⟩) ⟨0, 21⟩
    (e.evaluate db).notes =
        [⟨.warn, "unknown relation \"M\", using an empty relation"⟩,
          ⟨.debug, "step 0: Access base relation: M -> 0 rows"⟩,
          ⟨.debug, "condition \"old\" has no comparison operator, passing all rows"⟩,
          ⟨.debug, "step 1: Filter rows where: old -> 0 rows"⟩,
          ⟨.debug, "step 2: Access base relation: R -> 1 rows"⟩] ∧
      (e.evaluate db).value = .error ⟨"a", ⟨0, 17⟩⟩ ∧
      (∃ node after, e.postorder 0 = e.reached 0 ++ node :: after ∧
        (⟨"a", ⟨0, 17⟩⟩ : MalformedJoin).ArisesAt node.2) ∧
      ∃ t, (l.evaluate db).value = .ok t ∧ (l.evaluate db).notes.filter Note.isStep =
        t.steps.zipIdx.map fun (s, k) => ⟨.debug, s.summary k⟩ := by
  intro db l e
  obtain ⟨hnotes, -, -, herror⟩ := log_mirrors_postorder db e
  obtain ⟨-, -, htrace, -⟩ := log_mirrors_postorder db l
  have hvalue : (e.evaluate db).value = .error ⟨"a", ⟨0, 17⟩⟩ := rfl
  refine ⟨hnotes.trans ?_, hvalue, herror _ hvalue, _, rfl, (htrace _ rfl).2⟩
  decide +kernel

end RelTrace
