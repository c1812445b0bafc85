import RelTrace.Command.Options

/-!
# A step number among the options

An option that is given before all other arguments is read like the others, and changes nothing of
what is read from them. A step number can therefore be added to any arguments without one, and the
other options stay the same.
-/

namespace RelTrace

namespace Arguments

/-- The arguments with one more option, which has been given first. -/
def precede (flag : Flag) (value : String) (a : Arguments) : Arguments :=
  { a with given := (flag, value) :: a.given }

variable {flag other : Flag} {value : String}

theorem readLetters_precede (a : Arguments) (cs : List Char) :
    (a.precede flag value).readLetters cs = (a.readLetters cs).map (precede flag value) := by
  induction cs generalizing a with
  | nil => rfl
  | cons c rest ih =>
    unfold readLetters
    cases Flag.ofLetter? c with
    | none => rfl
    | some new =>
      dsimp only
      by_cases hnew : new.takesValue
      · rw [if_pos hnew, if_pos hnew]
        split <;> rfl
      · rw [if_neg hnew, if_neg hnew]
        exact ih (a.give new "")

theorem readWord_precede (a : Arguments) (cs : List Char) :
    (a.precede flag value).readWord cs = (a.readWord cs).map (precede flag value) := by
  unfold readWord
  cases Flag.ofWord? (String.ofList (cs.takeWhile (· ≠ '='))) with
  | none => rfl
  | some new =>
    dsimp only [Option.bind_eq_bind, Option.bind_some]
    split <;> rfl

theorem read_precede (a : Arguments) (argument : String) :
    (a.precede flag value).read argument = (a.read argument).map (precede flag value) := by
  have hpending : (a.precede flag value).pending? = a.pending? := rfl
  have honly : (a.precede flag value).onlyQueries = a.onlyQueries := rfl
  simp only [read, hpending, honly]
  by_cases h : a.onlyQueries
  · rw [if_pos h, if_pos h]
    rfl
  · rw [if_neg h, if_neg h]
    generalize argument.toList = cs, a.pending? = pending?
    split
    case h_1 => rfl
    case h_3 => simpa using readWord_precede a _
    case h_4 => simpa using readLetters_precede a _
    all_goals
      simp [*]
      rfl

theorem foldlM_read_precede (a : Arguments) (arguments : List String) :
    arguments.foldlM read (a.precede flag value) =
      (arguments.foldlM read a).map (precede flag value) := by
  induction arguments generalizing a with
  | nil => rfl
  | cons argument arguments ih =>
    rw [List.foldlM_cons, List.foldlM_cons, read_precede]
    cases a.read argument with
    | none => rfl
    | some b => exact ih b

/-- The value of an option does not look like an option. -/
theorem read_of_pending {a : Arguments} (hpending : a.pending? = some flag)
    (honly : a.onlyQueries = false) (argument : String) :
    a.read argument = match argument.toList with
      | '-' :: _ :: _ => .none
      | _ => some (a.give flag argument) := by
  unfold read
  rw [honly, if_neg Bool.false_ne_true, hpending]
  generalize argument.toList = cs
  split <;> simp_all

theorem values_precede_self (a : Arguments) :
    (a.precede flag value).values flag = value :: a.values flag := by
  simp [values, precede]

theorem values_precede_of_ne (h : other ≠ flag) (a : Arguments) :
    (a.precede flag value).values other = a.values other := by
  simp [values, precede, h.symm]

end Arguments

namespace Options

variable {a : Arguments} {o : Options} {text : String}

theorem single?_precede_of_ne {α : Type} {flag other : Flag} {value : String} (h : other ≠ flag)
    (a : Arguments) (value? : String → Option α) :
    single? (a.precede flag value) other value? = single? a other value? := by
  rw [single?, Arguments.values_precede_of_ne h, ← single?]

theorem switch?_precede_of_ne {flag other : Flag} {value : String} (h : other ≠ flag)
    (a : Arguments) : switch? (a.precede flag value) other = switch? a other := by
  rw [switch?, single?_precede_of_ne h, ← switch?]

/-- An option that is not given has no value. -/
theorem values_eq_nil_of_single? {α : Type} {flag : Flag} {value? : String → Option α}
    (h : single? a flag value? = some none) : a.values flag = [] := by
  unfold single? at h
  cases hvalues : a.values flag with
  | nil => rfl
  | cons s rest =>
    rw [hvalues] at h
    cases rest with
    | nil => cases hs : value? s <;> simp [atMostOne, hs] at h
    | cons => simp [atMostOne] at h

/-- What the arguments say of every option. -/
structure IsGivenBy (o : Options) (a : Arguments) : Prop where
  pending? : a.pending? = none
  query? : atMostOne a.queries = some o.query?
  exampleNumber? : single? a .exampleNumber count? = some o.exampleNumber?
  exclusive : (o.query?.isSome && o.exampleNumber?.isSome) = false
  databases : (a.values .database).mapM path? = some o.databases
  useName? : single? a .useName some = some o.useName?
  stepNumber? : single? a .stepNumber count? = some o.stepNumber?
  graph? : single? a .graph GraphMode.ofName? = some o.graph?
  json : switch? a .json = some o.json
  tree : switch? a .tree = some o.tree
  list : switch? a .list = some o.list
  schema : switch? a .schema = some o.schema
  exportTo? : single? a .exportTo path? = some o.exportTo?
  verbosity : (a.values .verbose).length = o.verbosity

theorem ofArguments?_eq_some_iff : ofArguments? a = some o ↔ o.IsGivenBy a := by
  constructor
  · intro h
    unfold ofArguments? at h
    split at h
    · cases h
    · rename_i hpending
      obtain ⟨query?, hquery, h⟩ := Option.bind_eq_some_iff.mp h
      obtain ⟨exampleNumber?, hexample, h⟩ := Option.bind_eq_some_iff.mp h
      split at h
      · cases h
      · rename_i hexclusive
        obtain ⟨databases, hdatabases, h⟩ := Option.bind_eq_some_iff.mp h
        obtain ⟨useName?, huse, h⟩ := Option.bind_eq_some_iff.mp h
        obtain ⟨stepNumber?, hstep, h⟩ := Option.bind_eq_some_iff.mp h
        obtain ⟨graph?, hgraph, h⟩ := Option.bind_eq_some_iff.mp h
        obtain ⟨json, hjson, h⟩ := Option.bind_eq_some_iff.mp h
        obtain ⟨tree, htree, h⟩ := Option.bind_eq_some_iff.mp h
        obtain ⟨list, hlist, h⟩ := Option.bind_eq_some_iff.mp h
        obtain ⟨schema, hschema, h⟩ := Option.bind_eq_some_iff.mp h
        obtain ⟨exportTo?, hexport, h⟩ := Option.bind_eq_some_iff.mp h
        obtain rfl := Option.some.inj h
        exact ⟨by simpa using hpending, hquery, hexample, by simpa using hexclusive, hdatabases,
          huse, hstep, hgraph, hjson, htree, hlist, hschema, hexport, rfl⟩
  · intro h
    unfold ofArguments?
    rw [h.pending?, h.query?, h.exampleNumber?, h.databases, h.useName?, h.stepNumber?, h.graph?,
      h.json, h.tree, h.list, h.schema, h.exportTo?, h.verbosity]
    exact if_neg (Bool.eq_false_iff.mp h.exclusive)

theorem single?_precede_self {α : Type} {flag : Flag} {value? : String → Option α}
    (h : single? a flag value? = some none) (value : String) :
    single? (a.precede flag value) flag value? = (value? value).map some := by
  unfold single?
  rw [Arguments.values_precede_self, values_eq_nil_of_single? h]
  cases hvalue : value? value <;> simp [atMostOne, hvalue]

/-- A step number that is given first is the only thing that changes. -/
theorem IsGivenBy.precede_stepNumber {n : Nat} (h : o.IsGivenBy a) (hstep : o.stepNumber? = none)
    (hn : count? text = some n) :
    { o with stepNumber? := some n }.IsGivenBy (a.precede .stepNumber text) where
  pending? := h.pending?
  query? := h.query?
  exampleNumber? := (single?_precede_of_ne (by decide) a _).trans h.exampleNumber?
  exclusive := h.exclusive
  databases := (congrArg (List.mapM path?) (Arguments.values_precede_of_ne (by decide) a)).trans
    h.databases
  useName? := (single?_precede_of_ne (by decide) a _).trans h.useName?
  stepNumber? := by
    rw [single?_precede_self (hstep ▸ h.stepNumber?), hn]
    rfl
  graph? := (single?_precede_of_ne (by decide) a _).trans h.graph?
  json := (switch?_precede_of_ne (by decide) a).trans h.json
  tree := (switch?_precede_of_ne (by decide) a).trans h.tree
  list := (switch?_precede_of_ne (by decide) a).trans h.list
  schema := (switch?_precede_of_ne (by decide) a).trans h.schema
  exportTo? := (single?_precede_of_ne (by decide) a _).trans h.exportTo?
  verbosity := (congrArg List.length (Arguments.values_precede_of_ne (by decide) a)).trans
    h.verbosity

theorem ofArguments?_precede_stepNumber (h : ofArguments? a = some o) (hstep : o.stepNumber? = none)
    (text : String) :
    ofArguments? (a.precede .stepNumber text) =
      (count? text).map fun n => { o with stepNumber? := some n } := by
  rw [ofArguments?_eq_some_iff] at h
  cases hn : count? text with
  | some n => exact ofArguments?_eq_some_iff.mpr (h.precede_stepNumber hstep hn)
  | none =>
    refine Option.eq_none_iff_forall_ne_some.mpr fun o' ho' => ?_
    have hgiven := (ofArguments?_eq_some_iff.mp ho').stepNumber?
    rw [single?_precede_self (hstep ▸ h.stepNumber?) text, hn] at hgiven
    cases hgiven

/-- A text that looks like an option is not a count. -/
theorem count?_eq_none_of_hyphen {c : Char} {cs : List Char} (h : text.toList = '-' :: c :: cs) :
    count? text = none := by
  unfold count?
  rw [h]
  rfl

/-- Numbers are counts in their usual spelling. -/
theorem count?_toString {n : Nat} (h : n < countBound) : count? (toString n) = some n := by
  have hdigits : ∀ c ∈ Nat.toDigits 10 n, c.isDigit := fun _ hc =>
    Nat.isDigit_of_mem_toDigits (by decide) (by decide) hc
  have hvalue : (Nat.toDigits 10 n).foldl (fun n c => 10 * n + (c.toNat - 48)) 0 = n :=
    Nat.ofDigitChars_toDigits (by decide) (by decide)
  have hne : Nat.toDigits 10 n ≠ [] := Nat.toDigits_ne_nil
  unfold count?
  rw [Nat.toString_eq_repr, Nat.toList_repr]
  generalize Nat.toDigits 10 n = ds at hdigits hvalue hne
  dsimp only
  split
  · exact absurd (hdigits '+' List.mem_cons_self) (by decide)
  · rw [if_neg (by simpa using ⟨hne, hdigits⟩)]
    simp only [hvalue, if_pos h]

/-- A step number can be added to arguments without one. The texts that are not counts are
refused. -/
theorem read?_step {arguments : List String} (h : read? arguments = some o)
    (hstep : o.stepNumber? = none) (text : String) :
    read? ("--step" :: text :: arguments) =
      (count? text).map fun n => { o with stepNumber? := some n } := by
  obtain ⟨a, ha, h⟩ := Option.bind_eq_some_iff.mp h
  let pending : Arguments := { Arguments.none with pending? := some .stepNumber }
  have hread : read? ("--step" :: text :: arguments) =
      ((pending.read text).bind fun a => arguments.foldlM Arguments.read a).bind ofArguments? := by
    have hword : Arguments.none.read "--step" = some pending := rfl
    unfold read?
    rw [List.foldlM_cons, hword]
    rfl
  have hvalue : pending.read text = match text.toList with
      | '-' :: _ :: _ => none
      | _ => some (Arguments.none.precede .stepNumber text) :=
    Arguments.read_of_pending rfl rfl text
  rw [hread, hvalue]
  split
  · next htext =>
    rw [count?_eq_none_of_hyphen htext]
    rfl
  · rw [Option.bind_some, Arguments.foldlM_read_precede, ha]
    exact ofArguments?_precede_stepNumber h hstep text

end Options

end RelTrace
