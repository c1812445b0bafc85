import RelTrace.Json.Draft
import RelTrace.Proofs.Json.Pieces

/-!
# Numbers of a text

Putting tokens together to a tree makes no numbers: each number in the tree of a text is a token of
the text, and is finite.

## Main definitions

* `Json.Draft.Contains`: a number stands in a tree.
* `Json.Building.Contains`: a number stands in what has been read.
-/

namespace RelTrace.Json

variable {n : Number}

/-- A number stands in the tree. -/
inductive Draft.Contains (n : Number) : Draft → Prop
  | number : Contains n (.number (some n))
  | item {d : Draft} {items : List Draft} {stop : Option Flaw} (hd : d ∈ items)
      (h : Contains n d) : Contains n (.list items stop)
  | entry {e : Option String × Draft} {entries : List (Option String × Draft)} {stop : Option Flaw}
      (he : e ∈ entries) (h : Contains n e.2) : Contains n (.object entries stop)

namespace Draft

@[simp] theorem contains_number_iff {m : Option Number} :
    (number m).Contains n ↔ m = some n := by
  constructor
  · intro h
    cases h
    rfl
  · rintro rfl
    exact .number

@[simp] theorem contains_list_iff {items : List Draft} {stop : Option Flaw} :
    (list items stop).Contains n ↔ ∃ d ∈ items, d.Contains n := by
  constructor
  · rintro (_ | ⟨hd, h⟩)
    exact ⟨_, hd, h⟩
  · rintro ⟨d, hd, h⟩
    exact .item hd h

@[simp] theorem contains_object_iff {entries : List (Option String × Draft)} {stop : Option Flaw} :
    (object entries stop).Contains n ↔ ∃ e ∈ entries, e.2.Contains n := by
  constructor
  · rintro (_ | _ | ⟨he, h⟩)
    exact ⟨_, he, h⟩
  · rintro ⟨e, he, h⟩
    exact .entry he h

@[simp] theorem not_contains_null : ¬null.Contains n := nofun

@[simp] theorem not_contains_bool (b : Bool) : ¬(bool b).Contains n := nofun

@[simp] theorem not_contains_string (s : Option String) : ¬(string s).Contains n := nofun

@[simp] theorem not_contains_broken (f : Flaw) : ¬(broken f).Contains n := nofun

end Draft

/-- A number stands in what an open list or object holds. -/
def Frame.Contains (n : Number) : Frame → Prop
  | list items => ∃ d ∈ items, d.Contains n
  | object entries _ => ∃ e ∈ entries, e.2.Contains n

@[simp] theorem Frame.contains_fill_iff {frame : Frame} {d : Draft} {stop : Option Flaw} :
    (frame.fill d stop).Contains n ↔ d.Contains n ∨ frame.Contains n := by
  cases frame <;> simp [fill, Contains, or_comm]

theorem contains_foldl_fill_iff {frames : List Frame} {d : Draft} :
    (frames.foldl (fun d frame => frame.fill d none) d).Contains n ↔
      d.Contains n ∨ ∃ frame ∈ frames, frame.Contains n := by
  induction frames generalizing d with
  | nil => simp
  | cons frame frames ih => simp [ih, or_assoc]

/-- A number stands in what is about to be put into a list or an object. -/
def Spot.Contains (n : Number) : Spot → Prop
  | value | firstItem => False
  | key entries _ | colon entries _ => ∃ e ∈ entries, e.2.Contains n
  | after d | done d _ => d.Contains n

namespace Building

/-- A number stands in what has been read. -/
def Contains (n : Number) (b : Building) : Prop :=
  b.spot.Contains n ∨ ∃ frame ∈ b.frames, frame.Contains n

@[simp] theorem contains_mk_iff {spot : Spot} {frames : List Frame} :
    Contains n ⟨spot, frames⟩ ↔ spot.Contains n ∨ ∃ frame ∈ frames, frame.Contains n := Iff.rfl

@[simp] theorem contains_abandon_iff {d : Draft} {frames : List Frame} :
    (abandon d frames).Contains n ↔ d.Contains n ∨ ∃ frame ∈ frames, frame.Contains n := by
  simp only [abandon, contains_mk_iff, Spot.Contains, contains_foldl_fill_iff]
  exact ⟨fun h => h.elim id .inr, .inl⟩

theorem contains_of_stepValue {frames : List Frame} {t : Token}
    (h : (stepValue frames t).Contains n) :
    (∃ frame ∈ frames, frame.Contains n) ∨ t = .number (some n) := by
  cases t <;> simp_all [stepValue, Spot.Contains, Frame.Contains, or_comm]

theorem contains_of_stepAfter {d : Draft} {frames : List Frame} {t : Token}
    (h : (stepAfter d frames t).Contains n) :
    d.Contains n ∨ ∃ frame ∈ frames, frame.Contains n := by
  cases frames with
  | nil => simpa [stepAfter, Spot.Contains] using h
  | cons frame frames =>
    cases frame <;> cases t <;> simp_all [stepAfter, Spot.Contains, Frame.Contains, or_assoc]

theorem contains_of_step {b : Building} {t : Token} (h : (b.step t).Contains n) :
    b.Contains n ∨ t = .number (some n) := by
  obtain ⟨spot, frames⟩ := b
  rw [contains_mk_iff]
  cases spot with
  | value => exact (contains_of_stepValue h).imp_left .inr
  | firstItem =>
    simp only [step] at h
    split at h
    · simp_all [Spot.Contains]
    · exact (contains_of_stepValue h).imp_left .inr
  | key entries first =>
    simp only [step] at h
    split at h
    case h_3 => cases first <;> simp_all [Spot.Contains]
    all_goals exact .inl (by simpa [Spot.Contains] using h)
  | colon entries key =>
    simp only [step] at h
    split at h
    · exact .inl (by simpa [Spot.Contains, Frame.Contains] using h)
    · exact .inl (by simpa [Spot.Contains, Frame.Contains] using h)
  | after d => exact .inl (contains_of_stepAfter h)
  | done d trailing => exact .inl h

theorem contains_of_foldl_step {b : Building} {ts : List Token}
    (h : (ts.foldl step b).Contains n) : b.Contains n ∨ .number (some n) ∈ ts := by
  induction ts generalizing b with
  | nil => exact .inl h
  | cons t ts ih =>
    rcases ih h with hstep | hmem
    · rcases contains_of_step hstep with hb | rfl
      · exact .inl hb
      · exact .inr List.mem_cons_self
    · exact .inr (List.mem_cons_of_mem t hmem)

theorem contains_of_finish {b : Building} (h : b.finish.1.Contains n) : b.Contains n := by
  obtain ⟨spot, frames⟩ := b
  cases spot with
  | value => simpa [finish, Spot.Contains, contains_foldl_fill_iff] using h
  | firstItem =>
    simp only [finish, contains_foldl_fill_iff] at h
    obtain ⟨frame, hframe, h⟩ := h.resolve_left (by simp)
    exact .inr ⟨frame, List.mem_of_mem_drop hframe, h⟩
  | key entries first => simpa [finish, Spot.Contains, contains_foldl_fill_iff] using h
  | colon entries key =>
    simpa [finish, Spot.Contains, Frame.Contains, contains_foldl_fill_iff] using h
  | after d =>
    cases frames with
    | nil => exact .inl h
    | cons frame frames => simpa [finish, Spot.Contains, contains_foldl_fill_iff, or_assoc] using h
  | done d trailing => exact .inl h

end Building

/-- Each number in the tree of a text is a token of the text. -/
theorem mem_tokens_of_contains_draft {cs : List Char} (h : (draft cs).1.Contains n) :
    .number (some n) ∈ tokens cs := by
  refine (Building.contains_of_foldl_step (Building.contains_of_finish h)).resolve_left ?_
  rintro (hspot | ⟨frame, hframe, -⟩)
  · exact hspot
  · cases hframe

theorem isFinite_of_readNumber? {negative : Bool} {whole fraction : List Char} {exponent : Int}
    (h : readNumber? negative whole fraction exponent = some n) : n.isFinite := by
  unfold readNumber? at h
  obtain ⟨size, -, hscale⟩ := Option.bind_eq_some_iff.mp h
  obtain ⟨scaled, -, rfl⟩ := Option.map_eq_some_iff.mp hscale
  rfl

theorem isFinite_of_scanNumber {negative : Bool} {cs left : List Char}
    (h : scanNumber negative cs = .found (some n) left) : n.isFinite := by
  unfold scanNumber at h
  split at h
  · cases h
  · split at h
    · cases h
    · simp only at h
      split at h
      · cases h
      · simp only [Scan.found.injEq] at h
        exact isFinite_of_readNumber? h.1

theorem isFinite_of_tokenAt {c : Char} {cs : List Char}
    (h : (tokenAt c cs).1 = .number (some n)) : n.isFinite := by
  have htoken {negative : Bool} {cs : List Char}
      (h : ((scanNumber negative cs).token false .number).1 = .number (some n)) : n.isFinite := by
    cases hscan : scanNumber negative cs with
    | flawed f =>
      rw [hscan] at h
      cases h
    | found m left =>
      rw [hscan] at h
      obtain rfl := Token.number.inj h
      exact isFinite_of_scanNumber hscan
  rcases eq_minus_or_isDigit_of_tokenAt h with rfl | hdigit
  · exact htoken h
  · rw [tokenAt_of_isDigit hdigit] at h
    exact htoken h

/-- A number that is read is finite. -/
theorem isFinite_of_mem_tokens {cs : List Char} (h : .number (some n) ∈ tokens cs) :
    n.isFinite := by
  induction cs using tokens.induct with
  | case1 => simp [tokens] at h
  | case2 c cs hspace ih =>
    rw [tokens_of_isSpace hspace] at h
    exact ih h
  | case3 c cs hspace ih =>
    rw [tokens_of_not_isSpace (Bool.eq_false_iff.mpr hspace)] at h
    rcases List.mem_cons.mp h with htoken | hmem
    · exact isFinite_of_tokenAt htoken.symm
    · exact ih hmem

end RelTrace.Json
