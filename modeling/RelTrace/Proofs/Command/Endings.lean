import RelTrace.Proofs.Command.Options
import RelTrace.Proofs.Command.Preparation
import RelTrace.Proofs.Command.Printing

/-!
# How the command ends

The command prints a trace or nothing of one, and a step number selects a part of the trace without
changing anything else. What is printed before the trace does not depend on the step number.

## Main definitions

* `Command.outcome`: how the command ends.
* `Command.Ends`: the ways in which it may end.
* `Command.ShowsSteps`: the command with and without a step number.
-/

namespace RelTrace

namespace Command

/-- How the command ends with some arguments on a folder. -/
def outcome (folder : Folder) (arguments : List String) : Outcome :=
  (run folder arguments).value.1

/-- The end of the command after the stages before the trace. -/
def conclude (o : Options) : Except Failure (Option Prepared) × String → Outcome
  | (.error f, printed) => ⟨1, printed, f.text⟩
  | (.ok none, printed) => ⟨0, printed, ""⟩
  | (.ok (some p), printed) => ⟨0, printed ++ (present o p).value, ""⟩

/-- The ways in which the command may end for some options: it fails without anything of a trace, or
it succeeds without a query, or it prints the selected part of a trace in which everything that it
looks up is there. -/
inductive Ends (folder : Folder) (o : Options) : Outcome → Prop
  | failed {printed errors : String} (h : IsPreface folder o printed) :
      Ends folder o ⟨1, printed, errors⟩
  | idle {c : Catalog} {after : Folder} (hc : Opens folder o c)
      (hafter : Exports folder o c.current after) (h : ∀ query, ¬Asks o c.current query) :
      Ends folder o ⟨0, announcement o c ++ exportNotice o c.current, ""⟩
  | shown {c : Catalog} {query : String} {e : Expr} {t : Trace} {start stop : Nat} {text : String}
      (h : Evaluates folder o c query e t)
      (hrange : Selects o.stepNumber? t.steps.length start stop)
      (htext : traceText? o query t.steps start stop = some text) :
      Ends folder o ⟨0, preface o c e ++ text, ""⟩

/-- The command with some arguments that give no step number, and with arguments that also give one
and are the same otherwise. -/
structure ShowsSteps (folder : Folder) (arguments : List String) (o : Options) (c : Catalog)
    (query : String) (e : Expr) (t : Trace) : Prop where
  code : (outcome folder arguments).code = 0
  /-- A step number can be added to the arguments. -/
  read_step : ∀ text, Options.read? ("--step" :: text :: arguments) =
    (Options.count? text).map fun n => { o with stepNumber? := some n }
  read_number : ∀ n < Options.countBound,
    Options.read? ("--step" :: toString n :: arguments) = some { o with stepNumber? := some n }
  code_step : ∀ numbered n, Options.read? numbered = some { o with stepNumber? := some n } →
    (outcome folder numbered).code = if 1 ≤ n ∧ n ≤ t.steps.length then 0 else 1
  length_blocks : (blocks query t.steps).length = t.steps.length
  output : o.json = false → o.graph? = none →
    (outcome folder arguments).output = preface o c e ++ String.join (blocks query t.steps)
  output_step : o.json = false → o.graph? = none → ∀ numbered i block,
    Options.read? numbered = some { o with stepNumber? := some (i + 1) } →
      (blocks query t.steps)[i]? = some block →
        (outcome folder numbered).output = preface o c e ++ block
  json : o.json = true → (outcome folder arguments).output =
    preface o c e ++ ((Json.list (t.steps.map Step.toJson)).pretty ++ "\n")
  json_step : o.json = true → ∀ numbered i s,
    Options.read? numbered = some { o with stepNumber? := some (i + 1) } →
      t.steps[i]? = some s → (outcome folder numbered).output =
        preface o c e ++ ((Json.list [s.toJson]).pretty ++ "\n")
  /-- Inputs are places of the whole trace. -/
  inputs : ∀ i (s : Step), t.steps[i]? = some s → ∀ input ∈ s.inputs, input < i

variable {folder : Folder} {arguments : List String} {o : Options} {c : Catalog} {query : String}
  {e : Expr} {t : Trace} {r : Except Failure (Option Prepared) × String} {start stop : Nat}

theorem outcome_of_read? (h : Options.read? arguments = some o) :
    outcome folder arguments = conclude o (runOn folder "" (prepare o)).1 := by
  rcases hrun : runOn folder "" (prepare o) with ⟨⟨result, printed⟩, folder'⟩
  unfold outcome run
  rw [h]
  dsimp only
  unfold perform
  unfold runOn at hrun
  rw [StateT.run_bind, Logged.value_bind, hrun]
  cases result with
  | error f => rfl
  | ok p? =>
    cases p? with
    | none => rfl
    | some p =>
      dsimp only
      rw [StateT.run_bind, Logged.value_bind, value_run_lift]
      rfl

theorem Selects.bounds {n? : Option Nat} {count : Nat} (h : Selects n? count start stop)
    (hcount : 0 < count) : start < stop ∧ stop ≤ count := by
  cases n? <;> simp only [Selects] at h <;> omega

theorem length_steps_pos (t : Trace) : 0 < t.steps.length := by
  simp [Trace.steps]

theorem traceText?_of_selects (h : Evaluates folder o c query e t)
    (hrange : Selects o.stepNumber? t.steps.length start stop) :
    traceText? o query t.steps start stop =
      some (present o ⟨query, t.steps, List.range' start (stop - start)⟩).value :=
  have hbounds := hrange.bounds (length_steps_pos t)
  traceText?_eq_value_present h.evaluates hbounds.1 hbounds.2

theorem ends_conclude (h : Prepares folder o r) : Ends folder o (conclude o r) := by
  obtain ⟨result, printed⟩ := r
  cases result with
  | error f => exact .failed h.isPreface
  | ok p? =>
    cases h with
    | idle hc hafter h => exact .idle hc hafter h
    | ready h hrange => exact .shown h hrange (traceText?_of_selects h hrange)

/-- A part of the trace that is selected is printed. -/
theorem outcome_of_selects {text : String} (hread : Options.read? arguments = some o)
    (h : Evaluates folder o c query e t)
    (hrange : Selects o.stepNumber? t.steps.length start stop)
    (htext : traceText? o query t.steps start stop = some text) :
    outcome folder arguments = ⟨0, preface o c e ++ text, ""⟩ := by
  rw [traceText?_of_selects h hrange] at htext
  obtain rfl := Option.some.inj htext
  rw [outcome_of_read? hread]
  rcases h.prepares_cases (prepares folder o) with ⟨start', stop', hrange', hr⟩ | ⟨hnone, -⟩
  · obtain ⟨rfl, rfl⟩ := hrange.unique hrange'
    rw [hr]
    rfl
  · exact absurd hrange (hnone start stop)

theorem code_of_not_selects (hread : Options.read? arguments = some o)
    (h : Evaluates folder o c query e t)
    (hrange : ∀ start stop, ¬Selects o.stepNumber? t.steps.length start stop) :
    (outcome folder arguments).code = 1 := by
  rw [outcome_of_read? hread]
  rcases h.prepares_cases (prepares folder o) with ⟨start, stop, hselects, -⟩ | ⟨-, f, hr⟩
  · exact absurd hselects (hrange start stop)
  · rw [hr]
    rfl

/-- A step number does not matter before the trace. -/
theorem Evaluates.with_stepNumber (h : Evaluates folder o c query e t) (n : Nat) :
    Evaluates folder { o with stepNumber? := some n } c query e t := { h with }

theorem selects_all (hstep : o.stepNumber? = none) :
    Selects o.stepNumber? t.steps.length 0 t.steps.length := by
  rw [hstep]
  exact ⟨rfl, rfl⟩

section Numbered

variable {numbered : List String} {n i : Nat}

/-- A good step number selects one step. -/
theorem outcome_step {text : String} (h : Evaluates folder o c query e t)
    (hread : Options.read? numbered = some { o with stepNumber? := some (i + 1) })
    (hi : i < t.steps.length) (htext : traceText? o query t.steps i (i + 1) = some text) :
    outcome folder numbered = ⟨0, preface o c e ++ text, ""⟩ := by
  have hselects : Selects (some (i + 1)) t.steps.length i (i + 1) := ⟨rfl, rfl, hi⟩
  rw [outcome_of_selects hread (h.with_stepNumber (i + 1)) hselects htext]
  rfl

/-- Exactly the numbers of steps are good step numbers. -/
theorem code_step_eq (h : Evaluates folder o c query e t)
    (hread : Options.read? numbered = some { o with stepNumber? := some n }) :
    (outcome folder numbered).code = if 1 ≤ n ∧ n ≤ t.steps.length then 0 else 1 := by
  have h' := h.with_stepNumber n
  by_cases hrange : 1 ≤ n ∧ n ≤ t.steps.length
  · have hselects : Selects (some n) t.steps.length (n - 1) n := ⟨by omega, rfl, hrange.2⟩
    rw [outcome_of_selects hread h' hselects (traceText?_of_selects h' hselects), if_pos hrange]
  · rw [if_neg hrange]
    refine code_of_not_selects hread h' ?_
    rintro start stop ⟨hstart, rfl, hstop⟩
    omega

end Numbered

theorem showsSteps (hread : Options.read? arguments = some o) (h : Evaluates folder o c query e t)
    (hstep : o.stepNumber? = none) : ShowsSteps folder arguments o c query e t where
  code := by
    have hall := selects_all (t := t) hstep
    rw [outcome_of_selects hread h hall (traceText?_of_selects h hall)]
  read_step := Options.read?_step hread hstep
  read_number n hn := by
    rw [Options.read?_step hread hstep, Options.count?_toString hn]
    rfl
  code_step _ _ := code_step_eq h
  length_blocks := length_blocks query t.steps
  output hjson hgraph := by
    have htext : traceText? o query t.steps 0 t.steps.length =
        some (String.join (blocks query t.steps)) := by
      rw [traceText?_blocks hjson hgraph, ← length_blocks query t.steps, slice?_all,
        Option.map_some]
    rw [outcome_of_selects hread h (selects_all hstep) htext]
  output_step hjson hgraph numbered i block hread hblock := by
    have htext : traceText? o query t.steps i (i + 1) = some block := by
      rw [traceText?_blocks hjson hgraph, slice?_singleton hblock]
      exact congrArg some String.empty_append
    have hi : i < t.steps.length := by
      rw [← length_blocks query t.steps]
      exact (List.getElem?_eq_some_iff.mp hblock).1
    rw [outcome_step h hread hi htext]
  json hjson := by
    have hlength : (t.steps.map Step.toJson).length = t.steps.length := List.length_map _
    have htext : traceText? o query t.steps 0 t.steps.length =
        some ((Json.list (t.steps.map Step.toJson)).pretty ++ "\n") := by
      rw [traceText?_json hjson, ← hlength, slice?_all, Option.map_some]
    rw [outcome_of_selects hread h (selects_all hstep) htext]
  json_step hjson numbered i s hread hs := by
    have hitem : (t.steps.map Step.toJson)[i]? = some s.toJson := by
      rw [List.getElem?_map, hs, Option.map_some]
    have htext : traceText? o query t.steps i (i + 1) =
        some ((Json.list [s.toJson]).pretty ++ "\n") := by
      rw [traceText?_json hjson, slice?_singleton hitem, Option.map_some]
    rw [outcome_step h hread (List.getElem?_eq_some_iff.mp hs).1 htext]
  inputs i s hs input hinput := by
    rw [Expr.steps_of_evaluate h.evaluates] at hs
    exact (Expr.exists_input hs hinput).1

/-- The command prints a trace or nothing of one. If it fails, what it has printed ends before the
trace. If it succeeds, it has printed the part of the trace that the step number selects, and no
place that was looked up for it was out of range. A step number of the trace is good, and it selects
the block or the JSON of its step from what is printed without it. -/
theorem all_or_nothing (folder : Folder) (arguments : List String) :
    ((outcome folder arguments).code = 1 → ∃ o, Options.read? arguments = some o ∧
        IsPreface folder o (outcome folder arguments).output) ∧
      ∀ o, Options.read? arguments = some o → Ends folder o (outcome folder arguments) ∧
        ∀ c query e t, Evaluates folder o c query e t → o.stepNumber? = none →
          ShowsSteps folder arguments o c query e t := by
  have hends {o : Options} (hread : Options.read? arguments = some o) :
      Ends folder o (outcome folder arguments) := by
    rw [outcome_of_read? hread]
    exact ends_conclude (prepares folder o)
  refine ⟨fun hcode => ?_, fun o hread => ⟨hends hread, fun c query e t h hstep =>
    showsSteps hread h hstep⟩⟩
  cases hread : Options.read? arguments with
  | none =>
    rw [outcome, run, hread] at hcode
    cases hcode
  | some o =>
    have h := hends hread
    generalize outcome folder arguments = out at h hcode
    cases h with
    | failed h => exact ⟨o, rfl, h⟩
    | idle | shown => cases hcode

theorem all_or_nothing_projection :
    let outcomeWith (arguments : List String) := outcome .empty (arguments ++ ["π[x](T)"])
    (outcomeWith []).code = 0 ∧ (outcomeWith ["-s2"]).code = 0 ∧
      (outcomeWith ["--step=0"]).code = 1 ∧ (outcomeWith ["--step", "3"]).code = 1 ∧
      (∃ o, IsPreface .empty o (outcomeWith ["--step", "3"]).output) ∧
      (outcomeWith []).output =
        (outcomeWith ["-s", "1"]).output ++ (outcomeWith ["--step", "+2"]).output := by
  intro outcomeWith
  let o : Options :=
    ⟨some "π[x](T)", [], none, none, none, none, false, false, false, false, none, 0⟩
  let e : Expr := .project ["x"] (.relation "T" ⟨5, 6⟩) ⟨0, 7⟩
  have hread : Options.read? ["π[x](T)"] = some o := rfl
  obtain ⟨t, ht, hlength⟩ : ∃ t,
      (e.evaluate Catalog.initial.current.tables.find?).value = .ok t ∧ t.steps.length = 2 :=
    ⟨_, rfl, rfl⟩
  have h : Evaluates .empty o .initial "π[x](T)" e t :=
    ⟨⟨[], .nil, rfl⟩, ⟨.empty, rfl⟩, .inl rfl, rfl, ht⟩
  have hsteps := ((all_or_nothing .empty ["π[x](T)"]).2 o hread).2 _ _ _ _ h rfl
  have hcode (n : Nat) (numbered : List String)
      (hread : Options.read? numbered = some { o with stepNumber? := some n }) :=
    hsteps.code_step numbered n hread
  rw [hlength] at hcode
  have hthree := hcode 3 ["--step", "3", "π[x](T)"] rfl
  obtain ⟨o', -, hpreface⟩ := (all_or_nothing .empty ["--step", "3", "π[x](T)"]).1 hthree
  refine ⟨hsteps.code, hcode 2 ["-s2", "π[x](T)"] rfl, hcode 0 ["--step=0", "π[x](T)"] rfl, hthree,
    ⟨o', hpreface⟩, ?_⟩
  obtain ⟨first, second, hblocks⟩ := List.length_eq_two.mp (hsteps.length_blocks.trans hlength)
  have houtput := hsteps.output rfl rfl
  have hfirst := hsteps.output_step rfl rfl ["-s", "1", "π[x](T)"] 0 first rfl
  have hsecond := hsteps.output_step rfl rfl ["--step", "+2", "π[x](T)"] 1 second rfl
  have hpreface : preface o .initial e = "" := rfl
  rw [hblocks] at houtput hfirst hsecond
  specialize hfirst rfl
  specialize hsecond rfl
  rw [hpreface, String.empty_append] at houtput
  rw [hpreface, String.empty_append] at hfirst hsecond
  change (outcome .empty ["π[x](T)"]).output = (outcome .empty ["-s", "1", "π[x](T)"]).output ++
    (outcome .empty ["--step", "+2", "π[x](T)"]).output
  rw [houtput, hfirst, hsecond]
  exact congrArg (· ++ second) String.empty_append

end Command

end RelTrace
