import RelTrace.Proofs.Command.Preparation
import RelTrace.Proofs.Database.RoundTrip
import RelTrace.Proofs.Folder
import RelTrace.Proofs.Text.Lines
import RelTrace.Proofs.Text.LowerCase

/-!
# Where databases are exported to

Lower-casing and joining words neither make nor remove slashes, so that the file name of a database
has a slash exactly if the name of the database has one. Without slashes the file is an entry of the
folder that it is exported to. A slash divides the file name into names that are followed, and the
file can lie in another folder.
-/

namespace RelTrace

namespace Text

variable {c : Char} {cs before : List Char}

theorem lowerChar_eq_slash_iff : lowerChar c = '/' ↔ c = '/' := by
  have hslash : '/'.toNat ∉ lowerForms := by decide +kernel
  constructor
  · intro h
    rcases lowerChar_cases c with hc | ⟨-, hform⟩
    · rw [← hc, h]
    · rw [h] at hform
      exact absurd hform hslash
  · rintro rfl
    decide

theorem slash_mem_lowerAfter : '/' ∈ lowerAfter before cs ↔ '/' ∈ cs := by
  induction cs generalizing before with
  | nil => rfl
  | cons c cs ih =>
    rw [lowerAfter, List.mem_append, ih, List.mem_cons]
    refine or_congr ?_ Iff.rfl
    split
    · next hsigma =>
      subst hsigma
      split <;> decide
    · split
      · next hdotted =>
        subst hdotted
        decide
      · rw [List.mem_singleton, eq_comm, lowerChar_eq_slash_iff, eq_comm]

end Text

theorem Database.slash_mem_fileName (d : Database) :
    '/' ∈ d.fileName.toList ↔ '/' ∈ d.name.toList := by
  have hending : '/' ∉ ".json".toList := by decide
  have hhyphen : '/' ∉ "-".toList := by decide
  have hblank : Text.isBlank '/' = false := by decide
  rw [fileName, slug, String.toList_append, List.mem_append, or_iff_left hending,
    Text.mem_intercalate hhyphen]
  simp only [List.mem_map, exists_exists_and_eq_and, String.toList_ofList]
  rw [Text.exists_mem_words, and_iff_left hblank, Text.lower, Text.slash_mem_lowerAfter]

namespace Database

variable {directory path text : String} {folder after : Folder}

/-- A file name is the name of an entry of a folder unless it has a slash. -/
theorem isEntryName_fileName_iff (d : Database) :
    Folder.IsEntryName d.fileName ↔ '/' ∉ d.name.toList := by
  have hlength : 5 ≤ d.fileName.length := by
    rw [fileName, String.length_append]
    exact Nat.le_add_left _ _
  have hne {name : String} (hname : name.length < 5) : d.fileName ≠ name :=
    fun heq => absurd (heq ▸ hlength) (Nat.not_le_of_lt hname)
  rw [Folder.IsEntryName, d.slash_mem_fileName]
  exact ⟨fun h => h.2.1, fun h => ⟨hne (by decide), h, hne (by decide), hne (by decide)⟩⟩

theorem components_fileName_ne_nil (d : Database) : Folder.components d.fileName ≠ [] := by
  have hletter : 'n' ∈ d.fileName.toList := by
    rw [fileName, String.toList_append]
    exact List.mem_append_right _ (by decide)
  exact Folder.components_ne_nil hletter (by decide)

theorem run_exportTo_eq_ok_iff (d : Database) :
    ((exportTo directory d : Desk _).run folder).value = (.ok path, after) ↔
      path = Folder.join directory d.fileName ∧
        folder.write (Folder.join directory d.fileName) d.toText = .ok after := by
  rw [Command.run_exportTo]
  dsimp only
  cases folder.write (Folder.join directory d.fileName) d.toText with
  | error cause => simp
  | ok result => simp [eq_comm]

/-- An export that fails leaves all files as they are. -/
theorem folder_of_run_exportTo_eq_error {d : Database} {e : DatabaseError}
    (h : ((exportTo directory d : Desk _).run folder).value = (.error e, after)) :
    after = folder := by
  rw [Command.run_exportTo] at h
  dsimp only at h
  split at h
  · cases h
  · exact (Prod.mk.inj h).2.symm

end Database

/-- The name of the file is one name, and no special one, exactly if the name of the database has
no slash. Then an export writes the entry of that name in the folder that the directory leads to,
and nothing else; it succeeds whenever there is such a folder, the entry is not a folder itself, and
neither the name nor the whole path is too long. With slashes, an export writes where the names
between them lead, from the root if a slash comes first. An export that fails changes nothing. -/
theorem exports_without_slashes_stay_inside (d : Database) :
    (Folder.IsEntryName d.fileName ↔ '/' ∉ d.name.toList) ∧
    ('/' ∉ d.name.toList → ∀ folder directory path after,
      ((Database.exportTo directory d : Desk _).run folder).value = (.ok path, after) ↔
        path = Folder.join directory d.fileName ∧ Folder.IsUsable path ∧
          d.fileName.utf8ByteSize ≤ Folder.longestName ∧
          ∃ place, folder.LeadsTo directory place ∧
            folder.isDirectory (place ++ [d.fileName]) = false ∧
            after = folder.insert (Folder.pathOf (place ++ [d.fileName])) d.toText) ∧
    (∀ folder directory path after,
      ((Database.exportTo directory d : Desk _).run folder).value = (.ok path, after) →
        ∃ place target,
          (if d.fileName.toList.head? = some '/' then place = [""]
            else folder.LeadsTo directory place) ∧
          folder.follow place (Folder.components d.fileName) = .ok target ∧
          after = folder.insert (Folder.pathOf target) d.toText) ∧
    ∀ folder directory e after,
      ((Database.exportTo directory d : Desk _).run folder).value = (.error e, after) →
        after = folder := by
  refine ⟨d.isEntryName_fileName_iff, fun hslash folder directory path after => ?_,
    fun folder directory path after h => ?_, fun _ _ _ _ =>
      Database.folder_of_run_exportTo_eq_error⟩
  · have hentry := d.isEntryName_fileName_iff.mpr hslash
    rw [d.run_exportTo_eq_ok_iff]
    refine and_congr_right fun hpath => ?_
    rw [hpath, Folder.write_join_entry_eq_ok_iff hentry]
  · obtain ⟨rfl, hwrite⟩ := d.run_exportTo_eq_ok_iff.mp h
    split
    · next hroot =>
      rw [Folder.join_of_head?_eq hroot] at hwrite
      obtain ⟨target, hresolve, -, -, rfl⟩ := Folder.write_eq_ok_iff.mp hwrite
      obtain ⟨-, hfollow⟩ := Folder.resolve_eq_ok_iff.mp hresolve
      rw [Folder.origin, if_pos hroot] at hfollow
      exact ⟨[""], target, rfl, hfollow, rfl⟩
    · next hroot => exact Folder.exists_of_write_join hroot d.components_fileName_ne_nil hwrite

/-- A folder with an empty directory for exports and a file beside that directory. -/
def exportFolder : Folder := { Folder.ofList [("x.json", "1")] with directories := ["out"] }

theorem sample_stays_inside :
    '/' ∉ Database.sample.name.toList ∧ Folder.IsEntryName Database.sample.fileName ∧
      ((Database.exportTo "out" Database.sample : Desk _).run exportFolder).value =
        (.ok "out/university.json",
          exportFolder.insert "out/university.json" Database.sample.toText) := by
  obtain ⟨hname, hinside, -, -⟩ := exports_without_slashes_stay_inside Database.sample
  have hslash : '/' ∉ Database.sample.name.toList := by decide
  have hfile : Database.sample.fileName = "university.json" := by decide +kernel
  have hpath : Folder.join "out" "university.json" = "out/university.json" := by decide +kernel
  have hleads : exportFolder.LeadsTo "out" ["out"] := ⟨by decide +kernel, by decide +kernel⟩
  rw [hfile] at hinside
  refine ⟨hslash, hname.mpr hslash, (hinside hslash _ _ _ _).mpr ?_⟩
  refine ⟨hpath.symm, ⟨by decide, by decide +kernel, by decide +kernel⟩, by decide +kernel,
    ["out"], hleads, by decide +kernel, rfl⟩

/-- A database whose name climbs out of the folder that it is exported to. -/
def climber : Database where
  name := "../x"
  description? := none
  tables := .empty
  examples := []
  diagram? := none

theorem climber_leaves_the_directory :
    Database.ofText climber.toText = .ok climber ∧ ¬Folder.IsEntryName climber.fileName ∧
      exportFolder.LeadsTo "out" ["out"] ∧ exportFolder.find? "x.json" = some "1" ∧
      (∀ name, Folder.pathOf (["out"] ++ [name]) ≠ "x.json") ∧
      ((Database.exportTo "out" climber : Desk _).run exportFolder).value =
        (.ok "out/../x.json", exportFolder.insert "x.json" climber.toText) := by
  refine ⟨Database.ofText_toText (by decide +kernel) ?_, ?_, ?_, ?_, ?_, ?_⟩
  · have hvalues : climber.values = [] := rfl
    simp [hvalues]
  · rw [Database.isEntryName_fileName_iff]
    decide
  · exact ⟨by decide +kernel, by decide +kernel⟩
  · decide +kernel
  · intro name heq
    have hhead := congrArg (fun path => path.toList.head?) heq
    rw [Folder.pathOf_concat (List.cons_ne_nil _ _)] at hhead
    simp [Folder.pathOf] at hhead
  · have htarget : Folder.resolve exportFolder "out/../x.json" = .ok ["x.json"] := by
      decide +kernel
    rw [Database.run_exportTo_eq_ok_iff]
    refine ⟨by decide +kernel, Folder.write_eq_ok_iff.mpr ⟨_, htarget, ?_, ?_, rfl⟩⟩
    · decide +kernel
    · decide +kernel

end RelTrace
