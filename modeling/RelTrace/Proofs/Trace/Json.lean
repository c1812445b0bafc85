import RelTrace.Proofs.Database.RoundTrip
import RelTrace.Proofs.Query.Laminar
import RelTrace.Proofs.Trace.Shape
import RelTrace.Proofs.Value.Integers
import RelTrace.Trace.Json

/-!
# Reading traces back

The JSON of a trace tells all of its steps: what was done and where, the rows and the places of the
operands. A query of moderate length has steps of moderate numbers, and these are read back from the
printed text as they were, together with the rows if their values are.

## Main definitions

* `Step.decode`: finds a step in JSON.
* `Step.IsModest`: the numbers of the step are written with their digits.
-/

namespace RelTrace

open Number (integerBound)

namespace Json

/-- A natural number that is written with its digits. -/
def decodeNat : Decoder Nat
  | .number (some n) =>
    match n.integer? with
    | some i => .ok i.toNat
    | none => .error .unfit
  | d => .error d.mismatch

theorem decodeNat_number {n : Number} {i : Int} (h : n.integer? = some i) :
    decodeNat (.number (some n)) = .ok i.toNat := by
  rw [decodeNat, h]

theorem decodeNat_toDraft {n : Nat} (h : n < integerBound) :
    decodeNat (ofNat n).toDraft = .ok n :=
  decodeNat_number (Number.integer?_ofInt (by rwa [Int.natAbs_natCast]))

theorem exact_ofNat {n : Nat} (h : n < integerBound) : (ofNat n).Exact := by
  have hint : (n : Int).natAbs < integerBound := by rwa [Int.natAbs_natCast]
  obtain ⟨m, hm, -⟩ := Number.exists_ofInt hint
  have hfinite : (Number.ofInt n).isFinite := by rw [hm]; rfl
  have htext : (Value.ofInt n).toJson.pretty = toString (n : Int) := by
    rw [Value.ofInt, Value.toJson, pretty_number,
      Number.jsonText?_of_integer? (Number.integer?_ofInt hint), Option.getD_some]
  have hdecode := Value.decode_toString nestingBound hint
  rw [← htext] at hdecode
  obtain ⟨k, hk, htokens⟩ := tokens_of_decode (startsNumber_numberText hfinite) hdecode
  obtain rfl := Value.number.inj hk
  exact htokens

end Json

/-- The kind of a node with a name. -/
def Operator.decode : Json.Decoder Operator
  | .string (some s) =>
    match [relation, projection, selection, union, join].find? fun o => o.name = s with
    | some o => .ok o
    | none => .error .unfit
  | d => .error d.mismatch

/-- A span as it is written. -/
def Span.decode : Json.Decoder Span
  | .object [(some "start", start), (some "end", stop)] none => do
    return ⟨← Json.decodeNat start, ← Json.decodeNat stop⟩
  | _ => .error .unfit

namespace Step

/-- A step as it is written. -/
def decode : Json.Decoder Step
  | .object [(some "kind", operator), (some "description", description), (some "data", rows),
      (some "span", span), (some "depth", depth), (some "inputs", inputs)] none => do
    return {
      operator := ← Operator.decode operator
      description := ← Json.decodeString description
      rows := ← Relation.decode 2 rows
      span := ← Span.decode span
      depth := ← Json.decodeNat depth
      inputs := ← Json.decodeList Json.decodeNat inputs }
  | _ => .error .unfit

/-- The numbers of the step, those in its rows aside, are below the bound up to which numbers are
written with their digits. -/
structure IsModest (s : Step) : Prop where
  start_lt : s.span.start < integerBound
  stop_lt : s.span.stop < integerBound
  depth_lt : s.depth < integerBound
  inputs_lt : ∀ i ∈ s.inputs, i < integerBound

/-- Each value in the rows of the step is read from its own text. -/
def HasExactRows (s : Step) : Prop := ∀ row ∈ s.rows, ∀ e ∈ row.entries, e.2.toJson.Exact

variable {s : Step}

theorem decode_toDraft (h : s.IsModest) : decode s.toJson.toDraft = .ok s := by
  have hoperator : Operator.decode (.string (some s.operator.name)) = .ok s.operator := by
    cases s.operator <;> rfl
  have hspan : Span.decode s.span.toJson.toDraft = .ok s.span := by
    have hstart := Json.decodeNat_toDraft h.start_lt
    have hstop := Json.decodeNat_toDraft h.stop_lt
    simp only [Span.toJson, Json.toDraft, Json.entryDrafts, Span.decode, hstart, hstop]
    rfl
  have hinputs : Json.decodeList Json.decodeNat (Json.list (s.inputs.map Json.ofNat)).toDraft =
      .ok s.inputs :=
    Json.decodeList_map fun i hi => Json.decodeNat_toDraft (h.inputs_lt i hi)
  have hrows := Relation.decode_toDraft 2 s.rows
  have hdepth := Json.decodeNat_toDraft h.depth_lt
  simp only [toJson, Json.toDraft, Json.entryDrafts] at hinputs ⊢
  simp only [decode, hoperator, hspan, hinputs, hrows, hdepth]
  rfl

theorem exact_toJson (h : s.IsModest) (hrows : s.HasExactRows) : s.toJson.Exact := by
  have hdata : s.rows.toJson.Exact :=
    Json.exact_list_map.mpr fun row hrow => Json.exact_object_map.mpr (hrows row hrow)
  have hspan : s.span.toJson.Exact :=
    ⟨Json.exact_ofNat h.start_lt, Json.exact_ofNat h.stop_lt, trivial⟩
  have hinputs : (Json.list (s.inputs.map Json.ofNat)).Exact :=
    Json.exact_list_map.mpr fun i hi => Json.exact_ofNat (h.inputs_lt i hi)
  exact ⟨trivial, trivial, hdata, hspan, Json.exact_ofNat h.depth_lt, hinputs, trivial⟩

end Step

/-- What is printed of steps is read back as these steps. -/
theorem decode_stepsToJson {steps : List Step} (h : ∀ s ∈ steps, s.IsModest)
    (hrows : ∀ s ∈ steps, s.HasExactRows) :
    Json.decode (Json.decodeList Step.decode) (stepsToJson steps).pretty = .ok steps := by
  have hexact : (stepsToJson steps).Exact :=
    Json.exact_list_map.mpr fun s hs => Step.exact_toJson (h s hs) (hrows s hs)
  rw [Json.decode_pretty _ hexact]
  exact Json.decodeList_map fun s hs => Step.decode_toDraft (h s hs)

section Run

variable {db : Lookup} {query : String} {t : Trace}

theorem length_steps_le_of_run (h : (run db query).value = .ok t) :
    t.steps.length ≤ query.length := by
  obtain ⟨e, he, heval⟩ := run_eq_ok_iff.mp h
  have hscan : (tokenize query).length ≤ query.length := by
    rw [tokenize, ← String.length_toList]
    exact Token.length_scan_le.trans (Nat.zero_add _).le
  rw [(evaluate_hasShapeOf heval).length_steps]
  exact (compile_eq_ok_iff_derives.mp he).nodeCount_le.trans hscan

/-- The numbers of a step are not greater than the length of the query. -/
theorem isModest_of_run (h : (run db query).value = .ok t) (hquery : query.length < integerBound) :
    ∀ s ∈ t.steps, s.IsModest := by
  intro s hs
  obtain ⟨e, he, heval⟩ := run_eq_ok_iff.mp h
  have hshape := evaluate_hasShapeOf heval
  have hcount : t.steps.length < integerBound := (length_steps_le_of_run h).trans_lt hquery
  obtain ⟨j, hj⟩ := List.mem_iff_getElem?.mp hs
  have hlt := (List.getElem?_eq_some_iff.mp hj).1
  obtain ⟨node, hnode, -, hspan, -, -⟩ := hshape.node hj
  obtain ⟨hstart, hstop, -⟩ := liesIn_of_compile he 0 _ (List.mem_of_getElem? hnode)
  obtain ⟨d, i, hoccurs, hdepth, -⟩ := Expr.exists_occurs_of_getElem?_postorder hnode
  have hbelow := hoccurs.depth_lt
  rw [← hshape.length_steps] at hbelow
  rw [← hspan] at hstart hstop
  refine ⟨by omega, by omega, by omega, fun i hi => ?_⟩
  exact (hshape.input hj hi).1.trans (hlt.trans hcount)

/-- What is printed of the trace of a query is read back as its steps, the inputs included, if the
values in their rows are read from their own texts. -/
theorem decode_stepsToJson_of_run (h : (run db query).value = .ok t)
    (hquery : query.length < integerBound) (hrows : ∀ s ∈ t.steps, s.HasExactRows) :
    Json.decode (Json.decodeList Step.decode) (stepsToJson t.steps).pretty = .ok t.steps :=
  decode_stepsToJson (isModest_of_run h hquery) hrows

end Run

end RelTrace
