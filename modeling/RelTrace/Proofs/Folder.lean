import Mathlib.Data.List.SplitBy
import RelTrace.Folder
import RelTrace.Proofs.Text.Lines

/-!
# Where paths lead

A path is a list of names that are followed one after another, from the working folder or from the
root. Below another path, the names of both are followed in turn: what stands before the last name
leads to a folder, and a name without slashes leads to an entry of that folder. Writing changes what
is found at one place, and neither makes nor removes a directory.

## Main definitions

* `Folder.LeadsTo`: a path leads to a folder.
* `Folder.IsEntryName`: the names of entries.
* `Folder.HasPlainNames`: the places that paths can lead to.
-/

namespace RelTrace.Folder

variable {folder after : Folder} {directory name path text : String}
  {place target names rest : List String}

/-- The place from which a path is followed. -/
def origin (path : String) : List String := if path.toList.head? = some '/' then [""] else []

/-- A path leads to a folder at a place. The empty path leads to the working folder. -/
def LeadsTo (folder : Folder) (path : String) (place : List String) : Prop :=
  follow folder (origin path) (components path) = .ok place ∧ isDirectory folder place

/-- No name of a place has a slash, as in the places that paths lead to. -/
def HasPlainNames (place : List String) : Prop := ∀ name ∈ place, '/' ∉ name.toList

/-- A name that an entry of a folder can have, as a path of one name. -/
def IsEntryName (name : String) : Prop :=
  name ≠ "" ∧ '/' ∉ name.toList ∧ name ≠ "." ∧ name ≠ ".."

section Components

theorem components_append (h : ∀ c ∈ directory.toList.getLast?, c = '/') :
    components (directory ++ name) = components directory ++ components name := by
  unfold components
  rw [String.toList_append, List.splitBy_append, List.filter_append, List.map_append]
  intro c hc d hd
  simp [h c hc]

@[simp] theorem components_append_slash (directory : String) :
    components (directory ++ "/") = components directory := by
  have hslash : "/".toList = '/' :: [] := rfl
  unfold components
  rw [String.toList_append, hslash, List.splitBy_append_cons, List.filter_append]
  · simp [List.splitBy, List.splitBy.loop]
  · simp

/-- Below a path, a relative path adds its names. -/
theorem components_join (h : name.toList.head? ≠ some '/') :
    components (join directory name) = components directory ++ components name := by
  unfold join
  rw [decide_eq_false h, Bool.false_or]
  split
  · next hempty =>
    obtain rfl := String.isEmpty_iff.mp hempty
    rfl
  · split
    · next hlast =>
      refine components_append fun c hc => ?_
      rw [hlast] at hc
      exact (Option.some.inj hc).symm
    · rw [components_append, components_append_slash]
      simp

/-- Below a path, a relative path is followed from where that path is followed. -/
theorem origin_join (h : name.toList.head? ≠ some '/') :
    origin (join directory name) = origin directory := by
  have hhead (rest : String) (hdirectory : directory ≠ "") :
      (directory ++ rest).toList.head? = directory.toList.head? := by
    rw [String.toList_append, List.head?_append_of_ne_nil]
    simpa using hdirectory
  unfold join
  rw [decide_eq_false h, Bool.false_or]
  split
  · next hempty =>
    obtain rfl := String.isEmpty_iff.mp hempty
    simp [origin, h]
  · next hempty =>
    have hdirectory : directory ≠ "" := fun h => hempty (String.isEmpty_iff.mpr h)
    split
    · rw [origin, hhead _ hdirectory, origin]
    · rw [String.append_assoc, origin, hhead _ hdirectory, origin]

theorem getLast?_join (hne : name ≠ "") :
    (join directory name).toList.getLast? = name.toList.getLast? := by
  have hlist : name.toList ≠ [] := by simpa using hne
  unfold join
  split
  · rfl
  · split <;> rw [String.toList_append, List.getLast?_append_of_ne_nil _ hlist]

theorem join_of_head?_eq (h : name.toList.head? = some '/') : join directory name = name := by
  simp [join, h]

/-- A name without slashes is the one name of its path. -/
theorem components_of_notMem (hne : name ≠ "") (h : '/' ∉ name.toList) :
    components name = [name] := by
  have hchain : name.toList.IsChain fun a b => decide (a ≠ '/' ∧ b ≠ '/') = true := by
    refine List.Pairwise.isChain (List.pairwise_of_forall_mem_list fun a ha b hb => ?_)
    exact decide_eq_true ⟨fun heq => h (heq ▸ ha), fun heq => h (heq ▸ hb)⟩
  have hlist : name.toList ≠ [] := by simpa using hne
  have hslash : name.toList ≠ ['/'] := fun heq => h (heq ▸ List.mem_cons_self)
  rw [components, List.splitBy_of_isChain hlist hchain]
  simp [hslash]

/-- Slashes alone are no names; all else is. -/
theorem components_ne_nil {c : Char} (hc : c ∈ name.toList) (hslash : c ≠ '/') :
    components name ≠ [] := by
  rw [← List.flatten_splitBy (fun a b => decide (a ≠ '/' ∧ b ≠ '/')) name.toList,
    List.mem_flatten] at hc
  obtain ⟨run, hrun, hmem⟩ := hc
  have hne : run ≠ ['/'] := fun heq => hslash (List.mem_singleton.mp (heq ▸ hmem))
  rw [components]
  exact List.ne_nil_of_mem (List.mem_map_of_mem (List.mem_filter.mpr ⟨hrun, decide_eq_true hne⟩))

end Components

section Following

theorem follow_cons (h : name ≠ ".") (h' : name ≠ "..") :
    follow folder place (name :: rest) =
      if longestName < name.utf8ByteSize then .error .nameTooLong
      else if rest.isEmpty || isDirectory folder (place ++ [name]) then
        follow folder (place ++ [name]) rest
      else if isFile folder (place ++ [name]) then .error .notDirectory
      else .error .notFound := by
  rw [follow]
  · exact h
  · exact h'

theorem pathOf_concat (hplace : place ≠ []) :
    pathOf (place ++ [name]) = pathOf place ++ "/" ++ name := by
  rw [pathOf, String.intercalate_append_of_ne_nil hplace (List.cons_ne_nil _ _),
    String.intercalate_singleton, pathOf]

theorem toList_pathOf_append_slash (h : place ≠ []) :
    (pathOf place ++ "/").toList = place.flatMap fun name => name.toList ++ ['/'] := by
  induction place with
  | nil => contradiction
  | cons name place ih =>
    cases place with
    | nil => simp [pathOf]
    | cons other place =>
      rw [List.flatMap_cons, ← ih (List.cons_ne_nil other place)]
      simp [pathOf, String.intercalate_cons_cons]

theorem isDirectory_iff :
    isDirectory folder place ↔
      isGiven place ∨ ∃ path ∈ folder.paths, (pathOf place ++ "/").toList <+: path.toList := by
  simp [isDirectory]

theorem isGiven_of_isPrefix (hstart : place <+: target) (h : isGiven target) : isGiven place := by
  obtain ⟨later, rfl⟩ := hstart
  rw [isGiven, Bool.or_eq_true, decide_eq_true_iff] at h ⊢
  rcases h with hroot | habove
  · rcases List.append_eq_singleton_iff.mp hroot with ⟨rfl, -⟩ | ⟨hplace, -⟩
    · exact .inr rfl
    · exact .inl hplace
  · rw [List.all_append, Bool.and_eq_true] at habove
    exact .inr habove.1

/-- What a folder lies in is a folder. -/
theorem isDirectory_of_isPrefix (hstart : place <+: target) (h : isDirectory folder target) :
    isDirectory folder place := by
  by_cases hplace : place = []
  · exact isDirectory_iff.mpr (.inl (hplace ▸ rfl))
  rw [isDirectory_iff] at h ⊢
  rcases h with hgiven | ⟨path, hpath, hbelow⟩
  · exact .inl (isGiven_of_isPrefix hstart hgiven)
  -- What is below the folder is below all that it lies in.
  · refine .inr ⟨path, hpath, List.IsPrefix.trans ?_ hbelow⟩
    obtain ⟨later, rfl⟩ := hstart
    rw [toList_pathOf_append_slash hplace, toList_pathOf_append_slash (by simp [hplace]),
      List.flatMap_append]
    exact List.prefix_append _ _

/-- Where there is a folder, there is the one that holds it. -/
theorem isDirectory_parent (h : isDirectory folder place) : isDirectory folder (parent place) := by
  unfold parent
  split
  · exact h
  · split
    · next hgiven =>
      have habove : (place ++ [".."]).all (· = "..") := by simpa using hgiven
      simp [isDirectory, isGiven, habove]
    · exact isDirectory_of_isPrefix (List.dropLast_prefix place) h

/-- All names but the last have to lead to folders. -/
theorem follow_append_eq_ok_iff (hrest : rest ≠ []) (hplace : isDirectory folder place) :
    follow folder place (names ++ rest) = .ok target ↔
      ∃ middle, follow folder place names = .ok middle ∧ isDirectory folder middle ∧
        follow folder middle rest = .ok target := by
  induction names generalizing place with
  | nil =>
    constructor
    · intro h
      exact ⟨place, rfl, hplace, h⟩
    · rintro ⟨middle, hmiddle, -, h⟩
      cases hmiddle
      exact h
  | cons name names ih =>
    by_cases hdot : name = "."
    · subst hdot
      exact ih hplace
    by_cases hdots : name = ".."
    · subst hdots
      exact ih (isDirectory_parent hplace)
    have hmore : (names ++ rest).isEmpty = false := by simp [hrest]
    rw [List.cons_append, follow_cons hdot hdots, follow_cons hdot hdots, hmore, Bool.false_or]
    split
    · simp
    by_cases hnext : isDirectory folder (place ++ [name])
    · rw [if_pos hnext, hnext, Bool.or_true, if_pos rfl]
      exact ih hnext
    rw [if_neg hnext]
    constructor
    · intro h
      split at h <;> cases h
    · rintro ⟨middle, hmiddle, hdirectory, -⟩
      cases names with
      | nil =>
        cases hmiddle
        exact absurd hdirectory hnext
      | cons other names =>
        rw [List.isEmpty_cons, Bool.false_or, if_neg hnext] at hmiddle
        split at hmiddle <;> cases hmiddle

/-- A name is followed to the entry of the folder, whether or not the entry is there. -/
theorem follow_entry_eq_ok_iff (h : name ≠ ".") (h' : name ≠ "..") :
    follow folder place [name] = .ok target ↔
      name.utf8ByteSize ≤ longestName ∧ target = place ++ [name] := by
  rw [follow_cons h h', List.isEmpty_nil, Bool.true_or, if_pos rfl]
  split
  · next hlong => simp [Nat.not_le_of_lt hlong]
  · next hshort => simp [follow, Nat.le_of_not_lt hshort, eq_comm]

theorem isDirectory_origin (folder : Folder) (path : String) :
    isDirectory folder (origin path) := by
  unfold origin
  split <;> rfl

end Following

section Writing

/-- A path of the kind that can be used at all: not empty, without zero characters and not too
long. -/
def IsUsable (path : String) : Prop :=
  path ≠ "" ∧ '\x00' ∉ path.toList ∧ path.utf8ByteSize ≤ longestPath

theorem resolve_eq_ok_iff :
    resolve folder path = .ok target ↔
      IsUsable path ∧ follow folder (origin path) (components path) = .ok target := by
  have horigin : (if path.toList.head? = some '/' then [""] else []) = origin path := rfl
  unfold resolve IsUsable
  simp only [bind, Except.bind, horigin]
  by_cases hzero : '\x00' ∈ path.toList
  · simp [hzero]
  by_cases hlong : longestPath < path.utf8ByteSize
  · simp [hzero, hlong, Nat.not_le_of_lt hlong]
  by_cases hempty : path = ""
  · simp [hempty, longestPath]
  have hcontains : path.toList.contains '\x00' = false := by simpa using hzero
  have hisEmpty : path.isEmpty = false := by simpa using hempty
  rw [hcontains, hisEmpty, if_neg Bool.false_ne_true, if_neg hlong, if_neg Bool.false_ne_true]
  exact (and_iff_right ⟨hempty, hzero, Nat.le_of_not_lt hlong⟩).symm

theorem write_eq_ok_iff :
    write folder path text = .ok after ↔ ∃ target, resolve folder path = .ok target ∧
      isDirectory folder target = false ∧ asksForDirectory path = false ∧
      after = folder.insert (pathOf target) text := by
  unfold write
  simp only [bind, Except.bind, pure, Except.pure]
  cases resolve folder path with
  | error e => simp
  | ok place =>
    by_cases hplace : isDirectory folder place
    · simp [hplace]
    by_cases hpath : asksForDirectory path
    · simp [hpath]
    · simpa [hplace, hpath] using eq_comm

/-- Below a path to a folder, writing under a path of names writes where the names lead from there.
-/
theorem exists_of_write_join (h : name.toList.head? ≠ some '/') (hnames : components name ≠ [])
    (hwrite : write folder (join directory name) text = .ok after) :
    ∃ place target, LeadsTo folder directory place ∧
      follow folder place (components name) = .ok target ∧
      after = folder.insert (pathOf target) text := by
  obtain ⟨target, hresolve, -, -, rfl⟩ := write_eq_ok_iff.mp hwrite
  obtain ⟨-, hfollow⟩ := resolve_eq_ok_iff.mp hresolve
  rw [components_join h, origin_join h,
    follow_append_eq_ok_iff hnames (isDirectory_origin folder directory)] at hfollow
  obtain ⟨place, hplace, hdirectory, htarget⟩ := hfollow
  exact ⟨place, target, ⟨hplace, hdirectory⟩, htarget, rfl⟩

/-- Below a path to a folder, writing under the name of an entry writes that entry. -/
theorem write_join_entry_eq_ok_iff (hname : IsEntryName name) :
    write folder (join directory name) text = .ok after ↔
      IsUsable (join directory name) ∧ name.utf8ByteSize ≤ longestName ∧
        ∃ place, LeadsTo folder directory place ∧ isDirectory folder (place ++ [name]) = false ∧
          after = folder.insert (pathOf (place ++ [name])) text := by
  obtain ⟨hne, hslash, hdot, hdots⟩ := hname
  have hhead : name.toList.head? ≠ some '/' := fun h => hslash (List.mem_of_mem_head? h)
  have hlast : asksForDirectory (join directory name) = false := by
    rw [asksForDirectory, getLast?_join hne]
    exact decide_eq_false fun h => hslash (List.mem_of_mem_getLast? h)
  have hroot := isDirectory_origin folder directory
  simp only [write_eq_ok_iff, resolve_eq_ok_iff, components_join hhead, origin_join hhead,
    components_of_notMem hne hslash, follow_append_eq_ok_iff (List.cons_ne_nil name []) hroot,
    follow_entry_eq_ok_iff hdot hdots, LeadsTo]
  constructor
  · rintro ⟨target, ⟨husable, ⟨place, hplace, hdirectory, hshort, rfl⟩⟩, hfree, -, rfl⟩
    exact ⟨husable, hshort, place, ⟨hplace, hdirectory⟩, hfree, rfl⟩
  · rintro ⟨husable, hshort, place, ⟨hplace, hdirectory⟩, hfree, rfl⟩
    exact ⟨_, ⟨husable, ⟨place, hplace, hdirectory, hshort, rfl⟩⟩, hfree, hlast, rfl⟩

end Writing

section Directories

theorem slash_notMem_of_isChain {run : List Char} (hne : run ≠ ['/'])
    (h : run.IsChain fun a b => decide (a ≠ '/' ∧ b ≠ '/') = true) : '/' ∉ run := by
  induction h with
  | nil => exact List.not_mem_nil
  | singleton a => simpa [eq_comm] using hne
  | @cons_cons a b run hab _ ih =>
    obtain ⟨ha, hb⟩ := of_decide_eq_true hab
    have hrest : b :: run ≠ ['/'] := fun heq => hb (List.cons.inj heq).1
    exact List.not_mem_cons_of_ne_of_not_mem ha.symm (ih hrest)

theorem hasPlainNames_components (path : String) : HasPlainNames (components path) := by
  intro name hname
  obtain ⟨run, hrun, rfl⟩ := List.mem_map.mp hname
  obtain ⟨hmem, hne⟩ := List.mem_filter.mp hrun
  rw [String.toList_ofList]
  exact slash_notMem_of_isChain (of_decide_eq_true hne) (List.isChain_of_mem_splitBy hmem)

theorem HasPlainNames.concat (hplace : HasPlainNames place) (hname : '/' ∉ name.toList) :
    HasPlainNames (place ++ [name]) :=
  List.forall_mem_append.mpr ⟨hplace, List.forall_mem_singleton.mpr hname⟩

theorem HasPlainNames.parent (h : HasPlainNames place) : HasPlainNames (parent place) := by
  unfold Folder.parent
  split
  · exact h
  · split
    · exact h.concat (by decide)
    · exact fun name hname => h name (List.mem_of_mem_dropLast hname)

theorem hasPlainNames_origin (path : String) : HasPlainNames (origin path) := by
  unfold origin
  split <;> simp [HasPlainNames]

/-- Names lead from a folder to a folder, or to an entry of one. -/
theorem isDirectory_or_exists_of_follow (hdirectory : isDirectory folder place)
    (hplace : HasPlainNames place) (hnames : HasPlainNames names)
    (h : follow folder place names = .ok target) :
    HasPlainNames target ∧ (isDirectory folder target ∨
      ∃ holder name, isDirectory folder holder ∧ target = holder ++ [name]) := by
  induction names generalizing place with
  | nil =>
    cases h
    exact ⟨hplace, .inl hdirectory⟩
  | cons name names ih =>
    obtain ⟨hname, hrest⟩ := List.forall_mem_cons.mp hnames
    by_cases hdot : name = "."
    · subst hdot
      exact ih hdirectory hplace hrest h
    by_cases hdots : name = ".."
    · subst hdots
      exact ih (isDirectory_parent hdirectory) hplace.parent hrest h
    rw [follow_cons hdot hdots] at h
    split at h
    · cases h
    by_cases hnext : isDirectory folder (place ++ [name])
    · rw [hnext, Bool.or_true, if_pos rfl] at h
      exact ih hnext (hplace.concat hname) hrest h
    cases names with
    | nil =>
      cases h
      exact ⟨hplace.concat hname, .inr ⟨place, name, hdirectory, rfl⟩⟩
    | cons other names =>
      rw [List.isEmpty_cons, Bool.false_or, if_neg hnext] at h
      split at h <;> cases h

/-- Paths of places start like one another only if the places do. -/
theorem isPrefix_of_flatMap (hplace : HasPlainNames place) (htarget : HasPlainNames target)
    (h : (place.flatMap fun name => name.toList ++ ['/']) <+:
      target.flatMap fun name => name.toList ++ ['/']) : place <+: target := by
  have hinside {name : String} (h : '/' ∉ name.toList) : ∀ c ∈ name.toList, c != '/' :=
    fun c hc => bne_iff_ne.mpr (ne_of_mem_of_not_mem hc h)
  induction place generalizing target with
  | nil => exact List.nil_prefix
  | cons name place ih =>
    cases target with
    | nil => simp at h
    | cons name' target =>
      obtain ⟨hname, hnames⟩ := List.forall_mem_cons.mp hplace
      obtain ⟨hname', hnames'⟩ := List.forall_mem_cons.mp htarget
      obtain ⟨rest, hrest⟩ := h
      simp only [List.flatMap_cons, List.append_assoc, List.cons_append, List.nil_append] at hrest
      obtain ⟨hfirst, hlater⟩ := Text.append_inj_of_runs (hinside hname) (hinside hname')
        (by simp) (by simp) hrest
      obtain rfl := String.toList_inj.mp hfirst
      exact (List.prefix_cons_inj name).mpr (ih hnames hnames' ⟨rest, (List.cons.inj hlater).2⟩)

theorem mem_paths_insert {path' : String} :
    path' ∈ (folder.insert path text).paths ↔ path' = path ∨ path' ∈ folder.paths := by
  rw [paths, insert, List.mem_append, Keyed.names, Keyed.insert, mem_names_putEntry, paths,
    List.mem_append, or_assoc]
  rfl

/-- The path of an entry lies in the holder of the entry, and in what that one lies in. -/
theorem isDirectory_of_entry_below (hne : place ≠ []) (hplace : HasPlainNames place)
    (hentry : HasPlainNames (target ++ [name])) (htarget : isDirectory folder target)
    (h : (pathOf place ++ "/").toList <+: (pathOf (target ++ [name])).toList) :
    isDirectory folder place := by
  have hlonger := h.trans (List.prefix_append _ "/".toList)
  rw [← String.toList_append, toList_pathOf_append_slash hne,
    toList_pathOf_append_slash (by simp)] at hlonger
  rcases List.prefix_concat_iff.mp (isPrefix_of_flatMap hplace hentry hlonger) with
    rfl | hstart
  · exact absurd h.length_le (by simp)
  · exact isDirectory_of_isPrefix hstart htarget

/-- Writing neither makes nor removes a directory. -/
theorem isDirectory_of_write (h : write folder path text = .ok after)
    (hplace : HasPlainNames place) : isDirectory after place ↔ isDirectory folder place := by
  obtain ⟨target, hresolve, hfree, -, rfl⟩ := write_eq_ok_iff.mp h
  obtain ⟨-, hfollow⟩ := resolve_eq_ok_iff.mp hresolve
  obtain ⟨htarget, hdirectory | ⟨holder, name, hholder, rfl⟩⟩ :=
    isDirectory_or_exists_of_follow (isDirectory_origin folder path) (hasPlainNames_origin path)
      (hasPlainNames_components path) hfollow
  · exact absurd hdirectory (by simp [hfree])
  by_cases hne : place = []
  · simp [hne, isDirectory, isGiven]
  constructor
  · intro h
    rcases isDirectory_iff.mp h with hgiven | ⟨path', hpath, hbelow⟩
    · exact isDirectory_iff.mpr (.inl hgiven)
    · rcases mem_paths_insert.mp hpath with rfl | hpath
      · exact isDirectory_of_entry_below hne hplace htarget hholder hbelow
      · exact isDirectory_iff.mpr (.inr ⟨path', hpath, hbelow⟩)
  · intro h
    refine isDirectory_iff.mpr ((isDirectory_iff.mp h).imp_right ?_)
    rintro ⟨path', hpath, hbelow⟩
    exact ⟨path', mem_paths_insert.mpr (.inr hpath), hbelow⟩

end Directories

end RelTrace.Folder
