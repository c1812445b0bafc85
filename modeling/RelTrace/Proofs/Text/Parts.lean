import Mathlib.Data.List.DropRight
import Mathlib.Data.List.Nodup
import RelTrace.Proofs.Text.Cut

/-!
# Parts of a text

A text is cut at a mark that stands in it exactly once, and margins are cut off its ends. Both are
said here without a search: by the places where a mark stands, and by what is left between two
margins. A mark without repeated characters does not overlap itself, so a search behind its first
place finds every other one.

## Main definitions

* `StandsOnce`: the mark stands between two parts of the text and nowhere else.
* `IsTrimmed`, `HasCore`: the text between two margins.
-/

namespace RelTrace.Text

section Marks

variable {mark cs before after post : List Char}

/-- The mark stands between the two parts of the text and nowhere else. -/
def StandsOnce (mark cs before after : List Char) : Prop :=
  cs = before ++ mark ++ after ∧ ∀ pre post, cs = pre ++ mark ++ post → pre = before

/-- A text is cut at the first place of the mark. -/
theorem first_of_cut? (h : cut? mark cs = some (before, after)) :
    cs = before ++ mark ++ after ∧
      ∀ pre post, cs = pre ++ mark ++ post → before.length ≤ pre.length := by
  induction cs generalizing before with
  | nil => grind [cut?]
  | cons c cs ih =>
    rw [cut?] at h
    split at h
    · next hprefix =>
      cases h
      exact ⟨(List.prefix_iff_eq_append.mp (List.isPrefixOf_iff_prefix.mp hprefix)).symm,
        fun _ _ _ => Nat.zero_le _⟩
    · next hprefix =>
      obtain ⟨⟨rest, _⟩, hcut, heq⟩ := Option.map_eq_some_iff.mp h
      cases heq
      obtain ⟨hcs, hfirst⟩ := ih hcut
      refine ⟨by simp [hcs], fun pre post hplace => ?_⟩
      cases pre with
      | nil => exact absurd (List.isPrefixOf_iff_prefix.mpr ⟨post, hplace.symm⟩) hprefix
      | cons d pre =>
        obtain ⟨-, hrest⟩ := List.cons.inj hplace
        exact Nat.succ_le_succ (hfirst pre post hrest)

/-- A mark without repeated characters does not overlap itself. -/
theorem length_le_of_overlap {shift : List Char} (hmark : mark.Nodup) (hshift : shift ≠ [])
    (h : mark ++ after = shift ++ mark ++ post) : mark.length ≤ shift.length := by
  by_contra hlt
  -- The character at which the second mark begins is the first of the mark, but inside of it.
  have hinside : shift.length < mark.length := by omega
  have hplace : mark[shift.length]? = mark[0]? := by
    have hchar := congrArg (·[shift.length]?) h
    have hpos : 0 < mark.length := by omega
    simpa [List.getElem?_append, hinside, hpos] using hchar
  have hzero := (List.getElem?_inj hinside hmark).mp hplace
  exact hshift (List.length_eq_zero_iff.mp hzero)

theorem soleCut?_eq_some_iff_cut? :
    soleCut? mark cs = some (before, after) ↔
      cut? mark cs = some (before, after) ∧ cut? mark after = none := by
  grind [soleCut?, Option.isNone_iff_eq_none]

theorem soleCut?_eq_some_iff (hmark : mark.Nodup) (hne : mark ≠ []) :
    soleCut? mark cs = some (before, after) ↔ StandsOnce mark cs before after := by
  constructor
  · intro h
    obtain ⟨hcut, hnone⟩ := soleCut?_eq_some_iff_cut?.mp h
    obtain ⟨hcs, hfirst⟩ := first_of_cut? hcut
    refine ⟨hcs, fun pre post hplace => ?_⟩
    obtain ⟨shift, rfl⟩ : before <+: pre :=
      List.prefix_of_prefix_length_le ⟨_, (hcs.trans (List.append_assoc ..)).symm⟩
        ⟨_, (hplace.trans (List.append_assoc ..)).symm⟩ (hfirst pre post hplace)
    by_contra hshift
    -- A second place begins behind the first mark, in the part without a mark.
    have hrest : mark ++ after = shift ++ mark ++ post := by simpa [hcs] using hplace
    have hle := length_le_of_overlap hmark (by simpa using hshift) hrest
    obtain ⟨gap, rfl⟩ : mark <+: shift :=
      List.prefix_of_prefix_length_le ⟨_, rfl⟩ ⟨_, (hrest.trans (List.append_assoc ..)).symm⟩ hle
    exact cut?_eq_none_iff.mp hnone ⟨gap, post, by simpa using hrest.symm⟩
  · rintro ⟨hcs, hunique⟩
    obtain ⟨⟨pre, post⟩, hcut⟩ : ∃ parts, cut? mark cs = some parts := by
      rw [← Option.ne_none_iff_exists', Ne, cut?_eq_none_iff]
      exact not_not_intro ⟨before, after, hcs.symm⟩
    obtain ⟨hplace, -⟩ := first_of_cut? hcut
    obtain rfl := hunique pre post hplace
    obtain rfl : post = after := by simpa using hplace.symm.trans hcs
    have hnone : cut? mark post = none := by
      rw [cut?_eq_none_iff]
      rintro ⟨gap, rest, rfl⟩
      have hsame := hunique (pre ++ mark ++ gap) rest (by simp [hcs])
      obtain ⟨hnil, -⟩ : mark = [] ∧ gap = [] := by simpa using hsame
      exact hne hnil
    exact soleCut?_eq_some_iff_cut?.mpr ⟨hcut, hnone⟩

end Marks

section Margins

variable {margin : Char → Bool} {cs core : List Char}

/-- The text has ends, and they lie outside of the margin. -/
structure IsTrimmed (margin : Char → Bool) (cs : List Char) : Prop where
  ne_nil : cs ≠ []
  head?_eq_false : ∀ c ∈ cs.head?, margin c = false
  getLast?_eq_false : ∀ c ∈ cs.getLast?, margin c = false

theorem isTrimmed_iff :
    IsTrimmed margin cs ↔
      cs ≠ [] ∧ cs.head?.all (!margin ·) ∧ cs.getLast?.all (!margin ·) := by
  simp only [Option.all_eq_true, Bool.not_eq_true']
  constructor
  · rintro ⟨hne, hhead, hlast⟩
    exact ⟨hne, hhead, hlast⟩
  · rintro ⟨hne, hhead, hlast⟩
    exact ⟨hne, hhead, hlast⟩

instance : Decidable (IsTrimmed margin cs) := decidable_of_iff' _ isTrimmed_iff

theorem isTrimmed_of_forall (hne : cs ≠ []) (h : ∀ c ∈ cs, margin c = false) :
    IsTrimmed margin cs where
  ne_nil := hne
  head?_eq_false c hc := h c (List.mem_of_mem_head? hc)
  getLast?_eq_false c hc := h c (List.mem_of_mem_getLast? hc)

/-- The trimmed core of a text stands between two margins. -/
def HasCore (margin : Char → Bool) (cs core : List Char) : Prop :=
  IsTrimmed margin core ∧ ∃ left right,
    (∀ c ∈ left, margin c) ∧ (∀ c ∈ right, margin c) ∧ cs = left ++ core ++ right

theorem strip_eq_nil_iff : strip margin cs = [] ↔ ∀ c ∈ cs, margin c := by
  change (cs.dropWhile margin).rdropWhile margin = [] ↔ _
  rw [List.rdropWhile_eq_nil_iff]
  refine ⟨fun h => ?_, fun h c hc => h c ((List.dropWhile_sublist _).subset hc)⟩
  have hnil : cs.dropWhile margin = [] := by
    have hhead := List.head?_dropWhile_not margin cs
    cases hrest : cs.dropWhile margin with
    | nil => rfl
    | cons c rest => simp_all
  exact List.dropWhile_eq_nil_iff.mp hnil

theorem hasCore_strip (h : strip margin cs ≠ []) : HasCore margin cs (strip margin cs) := by
  have hcs : cs.takeWhile margin ++ cs.dropWhile margin = cs := List.takeWhile_append_dropWhile
  have hhead := List.head?_dropWhile_not margin cs
  generalize hrest : cs.dropWhile margin = rest at hcs hhead
  have hstrip : strip margin cs = rest.rdropWhile margin := by rw [← hrest]; rfl
  rw [hstrip] at h ⊢
  refine ⟨⟨h, ?_, ?_⟩, cs.takeWhile margin, rest.rtakeWhile margin, ?_, ?_, ?_⟩
  · intro c hc
    obtain ⟨tail, htail⟩ := rest.rdropWhile_prefix margin
    have hsame : rest.head? = some c := by rw [← htail, List.head?_append_of_ne_nil _ h, hc]
    simpa [hsame] using hhead
  · intro c hc
    have hlast := List.rdropWhile_last_not margin rest h
    rw [List.getLast?_eq_getLast_of_ne_nil h] at hc
    obtain rfl := Option.some.inj hc
    exact Bool.eq_false_iff.mpr hlast
  · exact fun c => List.mem_takeWhile_imp
  · exact fun c => List.mem_rtakeWhile_imp
  · rw [List.append_assoc, List.rdropWhile_append_rtakeWhile, hcs]

theorem HasCore.strip_eq (h : HasCore margin cs core) : strip margin cs = core := by
  obtain ⟨htrimmed, left, right, hleft, hright, rfl⟩ := h
  have hfront : (left ++ core ++ right).dropWhile margin = core ++ right := by
    rw [List.append_assoc]
    refine dropWhile_append_of_head? hleft fun c hc => htrimmed.head?_eq_false c ?_
    rwa [List.head?_append_of_ne_nil _ htrimmed.ne_nil] at hc
  have hback : (core ++ right).reverse.dropWhile margin = core.reverse := by
    rw [List.reverse_append]
    refine dropWhile_append_of_head? (fun c hc => hright c (List.mem_reverse.mp hc)) fun c hc => ?_
    exact htrimmed.getLast?_eq_false c (by rwa [List.head?_reverse] at hc)
  rw [strip, hfront, hback, List.reverse_reverse]

theorem IsTrimmed.strip_eq (h : IsTrimmed margin cs) : strip margin cs = cs :=
  HasCore.strip_eq ⟨h, [], [], by simp, by simp, by simp⟩

theorem exists_hasCore_iff : (∃ core, HasCore margin cs core) ↔ ∃ c ∈ cs, margin c = false := by
  have hblank : (∃ c ∈ cs, margin c = false) ↔ strip margin cs ≠ [] := by
    simp [Ne, strip_eq_nil_iff]
  rw [hblank]
  exact ⟨fun ⟨_, h⟩ => h.strip_eq.symm ▸ h.1.ne_nil, fun h => ⟨_, hasCore_strip h⟩⟩

/-- The visible characters of ASCII are not blank. -/
theorem isBlank_eq_false_of_toNat {c : Char} (hlow : 33 ≤ c.toNat) (hhigh : c.toNat ≤ 126) :
    isBlank c = false := by
  simp only [isBlank, Bool.or_eq_false_iff, Bool.and_eq_false_iff, decide_eq_false_iff_not,
    beq_eq_false_iff_ne]
  omega

theorem isBlank_eq_false_of_isAlphanum {c : Char} (h : c.isAlphanum) : isBlank c = false := by
  have hbounds : 48 ≤ c.toNat ∧ c.toNat ≤ 122 := by
    change ((c.isUpper || c.isLower) || c.isDigit) = true at h
    rcases Bool.or_eq_true_iff.mp h with h | h
    · rcases Bool.or_eq_true_iff.mp h with h | h
      · obtain ⟨hle, hge⟩ : 65 ≤ c.toNat ∧ c.toNat ≤ 90 := of_decide_eq_true h
        omega
      · obtain ⟨hle, hge⟩ := Bool.and_eq_true_iff.mp h
        have hle' : 97 ≤ c.toNat := of_decide_eq_true hle
        have hge' : c.toNat ≤ 122 := of_decide_eq_true hge
        omega
    · obtain ⟨hle, hge⟩ : 48 ≤ c.toNat ∧ c.toNat ≤ 57 := Char.isDigit_iff_toNat.mp h
      omega
  exact isBlank_eq_false_of_toNat (by omega) (by omega)

end Margins

end RelTrace.Text
