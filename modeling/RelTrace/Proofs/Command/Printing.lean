import Mathlib.Data.Nat.PSub
import RelTrace.Proofs.Command.Session
import RelTrace.Proofs.Trace.Diagram
import RelTrace.Proofs.Trace.Shape

/-!
# The printed trace

A trace is printed from one place to another. Every step has its block and its JSON, which depend on
the whole trace but not on the part that is printed, so what is printed for a part is that part of
what is printed for all. The places that are looked up on the way, those of the diagram included,
are places of the trace.

## Main definitions

* `Command.blocks`: the blocks of all steps.
* `Command.traceText?`: the printed part of a trace, with every place checked.
-/

namespace RelTrace

section Lists

variable {α β : Type}

theorem filterMap_getElem?_range' (l : List α) (start count : Nat) :
    (List.range' start count).filterMap (fun i => l[i]?) = (l.drop start).take count := by
  induction count generalizing start with
  | zero => rfl
  | succ count ih =>
    rw [List.range'_succ, List.filterMap_cons, ih]
    by_cases h : start < l.length
    · rw [List.getElem?_eq_getElem h, List.drop_eq_getElem_cons h]
      rfl
    · rw [List.getElem?_eq_none (by omega), List.drop_eq_nil_of_le (by omega),
        List.drop_eq_nil_of_le (by omega), List.take_nil, List.take_nil]

theorem map_extract (f : α → β) (l : List α) (start stop : Nat) :
    (l.extract start stop).map f = (l.map f).extract start stop := by
  simp only [List.extract_eq_take_drop, List.map_take, List.map_drop]

end Lists

namespace Logged

variable {α β : Type}

theorem value_mapM (f : α → Logged β) (l : List α) :
    (l.mapM f).value = l.map fun a => (f a).value := by
  induction l with
  | nil => rfl
  | cons a l ih => rw [List.mapM_cons, value_bind, value_bind, ih, value_pure, List.map_cons]

end Logged

/-- Every step of a trace has a diagram. -/
theorem exists_stepGraph?_of_evaluate {db : Lookup} {e : Expr} {t : Trace} {index : Nat}
    (h : (e.evaluate db).value = .ok t) (hindex : index < t.steps.length) :
    ∃ text, stepGraph? (t.steps.map Step.graphNode) index = some text := by
  refine ⟨_, stepGraph?_eq (by rw [List.getElem?_map, List.getElem?_eq_getElem hindex]; rfl) ?_⟩
  intro i hi
  have hstep : (e.stepsAt db 0 0)[index]? = some t.steps[index] := by
    rw [← Expr.steps_of_evaluate h, List.getElem?_eq_getElem hindex]
  rw [List.length_map]
  exact Nat.lt_trans (Expr.exists_input hstep hi).1 hindex

namespace Command

/-- The elements from one place to before another, if these are places of the list. -/
def slice? {α : Type} (l : List α) (start stop : Nat) : Option (List α) :=
  if start ≤ stop ∧ stop ≤ l.length then some (l.extract start stop) else none

/-- The blocks of all steps, as they are printed. -/
def blocks (query : String) (steps : List Step) : List String :=
  steps.zipIdx.map fun (s, index) => (stepBlock query steps.length index s).value

/-- The diagram around the step before a place, if there is such a step. -/
def graphText? (mode : GraphMode) (steps : List Step) (stop : Nat) : Option String := do
  let current ← stop.ppred
  let nodes := steps.map Step.graphNode
  match mode with
  | .operation => stepGraph? nodes current
  | .execution => if current < steps.length then some (traceGraph nodes current) else none

/-- The printed part of a trace. There is none if a place that is looked up, or subtracted from, is
not one of the trace. -/
def traceText? (o : Options) (query : String) (steps : List Step) (start stop : Nat) :
    Option String :=
  if o.json then (slice? (steps.map Step.toJson) start stop).map fun part =>
    (Json.list part).pretty ++ "\n"
  else do
    let text := String.join (← slice? (blocks query steps) start stop)
    match o.graph? with
    | some mode => return text ++ (← graphText? mode steps stop) ++ "\n"
    | none => return text

section Slices

variable {α β : Type} {l : List α} {start stop : Nat}

theorem slice?_of_le (hstart : start ≤ stop) (hstop : stop ≤ l.length) :
    slice? l start stop = some (l.extract start stop) := if_pos ⟨hstart, hstop⟩

theorem slice?_all (l : List α) : slice? l 0 l.length = some l := by
  rw [slice?_of_le (Nat.zero_le _) (Nat.le_refl _)]
  simp

theorem slice?_singleton {index : Nat} {a : α} (h : l[index]? = some a) :
    slice? l index (index + 1) = some [a] := by
  obtain ⟨hindex, rfl⟩ := List.getElem?_eq_some_iff.mp h
  rw [slice?_of_le (Nat.le_add_right index 1) hindex]
  rw [List.extract_eq_take_drop, List.drop_eq_getElem_cons hindex, Nat.add_sub_cancel_left,
    List.take_succ_cons, List.take_zero]

end Slices

variable {folder : Folder} {o : Options} {query : String} {steps : List Step} {start stop : Nat}

theorem traceText?_json (h : o.json = true) :
    traceText? o query steps start stop =
      (slice? (steps.map Step.toJson) start stop).map fun part =>
        (Json.list part).pretty ++ "\n" := if_pos h

theorem traceText?_blocks (hjson : o.json = false) (hgraph : o.graph? = none) :
    traceText? o query steps start stop =
      (slice? (blocks query steps) start stop).map String.join := by
  unfold traceText?
  rw [hjson, if_neg Bool.false_ne_true, hgraph]
  cases slice? (blocks query steps) start stop <;> rfl

@[simp] theorem length_blocks (query : String) (steps : List Step) :
    (blocks query steps).length = steps.length := by
  simp [blocks]

/-- The printed part of a trace is that part of what would be printed of all steps. -/
theorem value_present (h : start < stop) :
    (present o ⟨query, steps, List.range' start (stop - start)⟩).value =
      if o.json then (Json.list ((steps.map Step.toJson).extract start stop)).pretty ++ "\n"
      else String.join ((blocks query steps).extract start stop) ++ diagram o steps (stop - 1) := by
  let indexed := steps.zipIdx.map Prod.swap
  have hshown : ((List.range' start (stop - start)).filterMap fun index =>
      steps[index]?.map fun s => (index, s)) = indexed.extract start stop := by
    rw [List.extract_eq_take_drop, ← filterMap_getElem?_range']
    congr 1
    funext index
    rw [List.getElem?_map, List.getElem?_zipIdx, Option.map_map, Nat.zero_add]
    rfl
  have hlast : (List.range' start (stop - start)).getLast?.getD 0 = stop - 1 := by
    rw [List.getLast?_range', if_neg (by omega), Option.getD_some]
    omega
  unfold present
  dsimp only
  rw [hshown]
  cases o.json with
  | true =>
    have hsteps : indexed.map Prod.snd = steps := by
      rw [List.map_map]
      exact List.zipIdx_map_fst 0 steps
    rw [if_pos rfl, if_pos rfl, Logged.value_pure, map_extract, hsteps, stepsToJson, map_extract]
  | false =>
    have hblocks : (indexed.map fun a => (stepBlock query steps.length a.1 a.2).value) =
        blocks query steps := List.map_map
    rw [if_neg Bool.false_ne_true, if_neg Bool.false_ne_true, Logged.value_bind, Logged.value_mapM,
      Logged.value_pure, hlast, map_extract, hblocks]

theorem exists_graphText? {db : Lookup} {e : Expr} {t : Trace} {current : Nat}
    (h : (e.evaluate db).value = .ok t) (hcurrent : current < t.steps.length) (mode : GraphMode) :
    ∃ text, graphText? mode t.steps (current + 1) = some text := by
  cases mode with
  | operation => exact exists_stepGraph?_of_evaluate h hcurrent
  | execution => exact ⟨_, if_pos hcurrent⟩

theorem diagram_of_graphText? {mode : GraphMode} {current : Nat} {text : String}
    (hmode : o.graph? = some mode) (h : graphText? mode steps (current + 1) = some text) :
    diagram o steps current = text ++ "\n" := by
  unfold diagram
  rw [hmode]
  cases mode with
  | operation =>
    replace h : stepGraph? (steps.map Step.graphNode) current = some text := h
    dsimp only
    rw [h]
  | execution =>
    by_cases hcurrent : current < steps.length
    · replace h := (if_pos hcurrent).symm.trans h
      exact congrArg (· ++ "\n") (Option.some.inj h)
    · exact nomatch (if_neg hcurrent).symm.trans h

/-- Everything that is looked up to print a part of a trace is there. -/
theorem traceText?_eq_value_present {db : Lookup} {e : Expr} {t : Trace}
    (h : (e.evaluate db).value = .ok t) (hstart : start < stop) (hstop : stop ≤ t.steps.length) :
    traceText? o query t.steps start stop =
      some (present o ⟨query, t.steps, List.range' start (stop - start)⟩).value := by
  have hle := Nat.le_of_lt hstart
  rw [value_present hstart]
  unfold traceText?
  cases o.json with
  | true =>
    rw [if_pos rfl, if_pos rfl, slice?_of_le hle (by rwa [List.length_map])]
    rfl
  | false =>
    rw [if_neg Bool.false_ne_true, if_neg Bool.false_ne_true,
      slice?_of_le hle (by rwa [length_blocks])]
    cases hmode : o.graph? with
    | none =>
      have hdiagram : diagram o t.steps (stop - 1) = "" := by
        unfold diagram
        rw [hmode]
      rw [hdiagram, String.append_empty]
      rfl
    | some mode =>
      obtain ⟨current, rfl⟩ := Nat.exists_eq_add_one.mpr (Nat.zero_lt_of_lt hstart)
      obtain ⟨text, htext⟩ := exists_graphText? h hstop mode
      rw [Nat.add_sub_cancel, diagram_of_graphText? hmode htext]
      dsimp only [Option.bind_eq_bind, Option.bind_some]
      rw [htext, ← String.append_assoc]
      rfl

end Command

end RelTrace
