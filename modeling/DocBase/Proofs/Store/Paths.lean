import DocBase.Proofs.Store.Backend
import DocBase.Proofs.Store.Stored

/-! Where paths lead. What stores do to the disk closes no way to a file: directories are made and
never removed, and no file comes up in the place of one. What was removed is gone, and what is
opened where nothing was is empty. -/
namespace DocBase
open Keyed Disk

namespace Disk
variable {d e f : Disk} {way rest directory : List String} {path : String}

theorem key_eq_empty_iff : key way = "" ↔ way = [] ∨ way = [""] := by
  constructor
  · intro h
    cases way with
    | nil => exact Or.inl rfl
    | cons name rest =>
      cases rest with
      | nil =>
        refine Or.inr ?_
        rw [key] at h
        simpa using h
      | cons next rest =>
        have hslash := congrArg String.toList h
        rw [key, String.toList_intercalate] at hslash
        simp [List.intercalate] at hslash
  · rintro (rfl | rfl)
    · rfl
    · rfl

theorem isDirectory_iff :
    d.isDirectory way = true ↔ key way = "" ∨ d.directories.contains (key way) = true := by
  rw [key_eq_empty_iff, isDirectory]
  simp [or_assoc]

/-- From the one disk to the other each directory stays one, and no file comes up in its place. -/
structure Leads (d e : Disk) : Prop where
  directory {way : List String} (h : d.isDirectory way = true) : e.isDirectory way = true
  clear {way : List String} (h : d.isDirectory way = true) (hfile : d.isFile way = false) :
    e.isFile way = false

namespace Leads

theorem refl (d : Disk) : Leads d d := ⟨fun h => h, fun _ hfile => hfile⟩

theorem trans (h : Leads d e) (h' : Leads e f) : Leads d f :=
  ⟨fun hway => h'.directory (h.directory hway),
    fun hway hfile => h'.clear (h.directory hway) (h.clear hway hfile)⟩

theorem enter (h : Leads d e) (henter : d.enter way rest = .ok directory) :
    e.enter way rest = .ok directory := by
  induction rest generalizing way with
  | nil => exact henter
  | cons name rest ih =>
    by_cases hname : name = ".."
    · rw [hname, Disk.enter] at henter ⊢
      exact ih henter
    · rw [Disk.enter] at henter ⊢
      · obtain ⟨_, hchecked, henter⟩ := bind_eq_ok henter
        rw [hchecked]
        dsimp only at henter
        split at henter
        · cases henter
        next hfile =>
          split at henter
          · cases henter
          next hdirectory =>
            simp only [Bool.not_eq_true, Bool.not_eq_true', Bool.not_eq_false] at hfile hdirectory
            change (if e.isFile (way ++ [name]) then _ else _) = _
            rw [h.clear hdirectory hfile, h.directory hdirectory]
            exact ih henter
      · exact hname
      · exact hname

theorem locate (h : Leads d e) (hlocate : d.locate path = .ok way) : e.locate path = .ok way := by
  obtain ⟨_, hpath, hlocate⟩ := bind_eq_ok hlocate
  obtain ⟨directory, hdirectory, hlocate⟩ := bind_eq_ok hlocate
  rw [Disk.locate, hpath]
  change (e.enter [] (names path).dropLast >>= _) = _
  rw [h.enter hdirectory]
  exact hlocate

end Leads

/-! ## Steps -/

theorem leads_insert (d : Disk) (k : String) :
    Leads d { d with directories := d.directories.insert k () } := by
  refine ⟨fun hway => ?_, fun _ hfile => hfile⟩
  rw [isDirectory_iff] at hway ⊢
  exact hway.imp_right fun hthere => contains_insert_of_contains hthere k ()

theorem leads_makeDirectories (path : String) : Leads d (d.makeDirectories path).2 :=
  makeDirectories_of_steps .refl .trans leads_insert path

theorem leads_write (d : Disk) (file : FileId) (bytes : Bytes) : Leads d (d.write file bytes) :=
  ⟨fun hway => hway, fun _ hfile => hfile⟩

/-- A file that is made where no directory is stands in nobody's way. -/
theorem leads_create (hway : d.isDirectory way = false) (bytes : Bytes) :
    Leads d (d.create way bytes).2 := by
  refine ⟨fun hother => hother, fun {other} hother hfile => ?_⟩
  have hne : key other ≠ key way := fun hkey => by
    rw [isDirectory_iff, hkey, ← isDirectory_iff, hway] at hother
    cases hother
  rw [isFile, contains, create]
  dsimp only
  rw [get?_insert_ne hne]
  exact hfile

theorem leads_openFile (path : String) : Leads d (d.openFile path).2 := by
  rw [openFile]
  split
  · exact .refl d
  split
  · exact .refl d
  next hway =>
    split
    · exact .refl d
    · exact leads_create (by simpa using hway) _

/-- A removal brings up nothing. -/
theorem get?_remove_of_none (hd : d.Sound) {k : String} (hnone : d.links.get? k = none)
    (path : String) : (d.remove path).2.links.get? k = none := by
  rw [remove]
  split
  · exact hnone
  · exact hnone
  split
  · exact hnone
  · dsimp only
    rw [get?_erase hd.ascending, hnone, ite_self]

theorem leads_remove (hd : d.Sound) (path : String) : Leads d (d.remove path).2 := by
  refine ⟨fun {way} hway => ?_, fun {way} _ hfile => ?_⟩
  · rw [remove]
    split
    · exact hway
    · exact hway
    split
    · exact hway
    · exact hway
  · rw [isFile, contains, Option.isSome_eq_false_iff, Option.isNone_iff_eq_none] at hfile ⊢
    exact get?_remove_of_none hd hfile path

/-- A file is removed for good, so long as its path leads to it. -/
theorem linked_of_remove (hd : d.Sound) (hfound : d.linked path ≠ none →
    ∃ way, d.locate path = .ok way) (hremove : d.remove path = (.ok (), e)) :
    e.linked path = none := by
  rw [remove] at hremove
  split at hremove
  next hmissing =>
    cases hremove
    by_contra hlinked
    obtain ⟨way, hlocate⟩ := hfound hlinked
    rw [hmissing] at hlocate
    cases hlocate
  next => cases hremove
  next way hlocate =>
    split at hremove
    · cases hremove
    · cases hremove
      rw [linked, ← locate_eq_wayOf hlocate]
      exact get?_erase_self hd.ascending _

/-- What has come up at a path was found there. -/
theorem linked_of_openFile (path : String)
    (hlinked : (d.openFile path).2.linked path ≠ none) :
    d.linked path ≠ none ∨ ∃ way, (d.openFile path).2.locate path = .ok way := by
  have hleads : Leads d (d.openFile path).2 := leads_openFile path
  cases hlocate : d.locate path with
  | ok way => exact Or.inr ⟨way, hleads.locate hlocate⟩
  | error fault =>
    rw [openFile, hlocate] at hlinked
    exact Or.inl hlinked

theorem locate_of_openFile {file : FileId}
    (hopen : d.openFile path = (.ok file, e)) : ∃ way, e.locate path = .ok way := by
  have hleads : Leads d (d.openFile path).2 := leads_openFile path
  rw [hopen] at hleads
  cases hlocate : d.locate path with
  | ok way => exact ⟨way, hleads.locate hlocate⟩
  | error fault =>
    rw [openFile, hlocate] at hopen
    cases hopen

/-- What is opened where no file was is empty. -/
theorem read_openFile (hnone : d.linked path = none) {file : FileId}
    (hopen : d.openFile path = (.ok file, e)) : e.read file = .empty := by
  rw [openFile] at hopen
  split at hopen
  · cases hopen
  next way hlocate =>
    rw [linked, ← locate_eq_wayOf hlocate] at hnone
    rw [hnone] at hopen
    split at hopen
    · cases hopen
    · cases hopen
      exact read_create way .empty

/-- A file may be put in the place of one at a path only where no directory is. -/
theorem clear_of_canReplace {other : String} (h : d.canReplace path other = .ok ()) :
    ∃ way, d.locate other = .ok way ∧ d.isDirectory way = false := by
  obtain ⟨_, -, h⟩ := bind_eq_ok h
  split at h
  · cases h
  obtain ⟨way, hlocate, h⟩ := bind_eq_ok h
  split at h
  · cases h
  next hway => exact ⟨way, hlocate, by simpa using hway⟩

end Disk

/-! ## Logs -/

namespace StoreDriver
variable {d e : Disk} {path : String} {c : StoreConfig}

theorem leads_openLog (path : String) (c : StoreConfig) :
    Leads d (openLog path c d).2 := by
  have hmade : Leads d (d.makeDirectories (Log.directoryOf path)).2 := leads_makeDirectories _
  rw [openLog]
  split
  next hmake =>
    rw [hmake] at hmade
    exact hmade
  next d₁ hmake =>
    rw [hmake] at hmade
    have hopened : Leads d₁ (d₁.openFile path).2 := leads_openFile path
    split
    next hopen =>
      rw [hopen] at hopened
      exact hmade.trans hopened
    next hopen =>
      rw [hopen] at hopened
      exact (hmade.trans hopened).trans (leads_write _ _ _)

/-- The log that is open at a path was there, or is found there. -/
theorem linked_of_openLog (path : String) (c : StoreConfig)
    (hlinked : (openLog path c d).2.linked path ≠ none) :
    d.linked path ≠ none ∨ ∃ way, (openLog path c d).2.locate path = .ok way := by
  have hsame : SameFiles d (d.makeDirectories (Log.directoryOf path)).2 :=
    sameFiles_makeDirectories _
  rw [openLog] at hlinked ⊢
  split at hlinked
  next hmake =>
    rw [hmake] at hsame
    exact Or.inl (by rwa [linked, hsame.links] at hlinked)
  next d₁ hmake =>
    rw [hmake] at hsame
    have hfound := linked_of_openFile (d := d₁) path
    split at hlinked
    next hopen =>
      rw [hopen] at hfound
      refine (hfound hlinked).imp_left fun h => ?_
      rwa [linked, hsame.links] at h
    next hopen =>
      rw [hopen] at hfound
      refine (hfound hlinked).imp (fun h => ?_) fun h => ?_
      · rwa [linked, hsame.links] at h
      · rwa [locate_write]

/-- A log that was opened is found by its path. -/
theorem locate_of_openLog {b : Backend} (hopen : openLog path c d = (.ok b, e)) :
    ∃ way, e.locate path = .ok way := by
  rw [openLog] at hopen
  split at hopen
  next => cases hopen
  next d₁ hmake =>
    dsimp only at hopen
    split at hopen
    next => cases hopen
    next file d₂ hfile =>
      obtain ⟨way, hlocate⟩ := locate_of_openFile hfile
      cases hopen
      exact ⟨way, by rwa [locate_write]⟩

/-- A log that is opened where none was holds nothing. -/
theorem stored_of_openLog (hnone : d.linked path = none) {b : Backend}
    (hopen : openLog path c d = (.ok b, e)) : (b.load e).stored = some [] := by
  have hsame : SameFiles d (d.makeDirectories (Log.directoryOf path)).2 :=
    sameFiles_makeDirectories _
  rw [openLog] at hopen
  split at hopen
  next => cases hopen
  next d₁ hmake =>
    rw [hmake] at hsame
    dsimp only at hopen
    split at hopen
    next => cases hopen
    next file d₂ hfile =>
      have hempty : d₂.read file = .empty :=
        read_openFile (by rw [linked, hsame.links]; exact hnone) hfile
      cases hopen
      rw [hempty, Backend.load_open _ _ _ rfl]
      rfl

theorem leads_removeLog (hd : d.Sound) (path : String) : Leads d (removeLog path d).2 := by
  obtain ⟨hremoved, -⟩ := remove_spec hd path
  have hleads := leads_remove hd path
  rw [removeLog]
  split
  next hremove =>
    rw [hremove] at hleads
    exact hleads
  next hremove =>
    rw [hremove] at hleads hremoved
    exact hleads.trans (leads_remove hremoved _)

theorem get?_removeLog_of_none (hd : d.Sound) {k : String} (hnone : d.links.get? k = none)
    (path : String) : (removeLog path d).2.links.get? k = none := by
  obtain ⟨hremoved, -⟩ := remove_spec hd path
  have hgone := get?_remove_of_none hd hnone path
  rw [removeLog]
  split
  next hremove =>
    rw [hremove] at hgone
    exact hgone
  next hremove =>
    rw [hremove] at hgone hremoved
    exact get?_remove_of_none hremoved hgone _

theorem linked_of_removeLog (hd : d.Sound) (hfound : d.linked path ≠ none →
    ∃ way, d.locate path = .ok way) (hremove : removeLog path d = (.ok (), e)) :
    e.linked path = none := by
  obtain ⟨hremoved, -⟩ := remove_spec hd path
  rw [removeLog] at hremove
  split at hremove
  next => cases hremove
  next d₁ hfirst =>
    rw [hfirst] at hremoved
    have hgone := linked_of_remove hd hfound hfirst
    have hafter := get?_remove_of_none hremoved hgone (Log.compactPathOf path)
    rw [hremove] at hafter
    exact hafter

end StoreDriver

/-! ## Stores -/

namespace Backend
variable {b c : Backend} {d e : Disk} {p : Place}

/-- What is written back stands in nobody's way, so long as a log gives way to another only where
that can take its place. -/
theorem leads_flush (h : Alike p b c)
    (hp : ∀ path file obstacle, p = .log path file obstacle true → obstacle = none →
      ∃ way, d.locate path = .ok way ∧ d.isDirectory way = false) : Leads d (b.flush d).2 := by
  cases h with
  | memory h => exact .refl d
  | @log path file obstacle opened s t h =>
    rw [flush.eq_def]
    dsimp only
    split
    next hopen =>
      split
      next => exact leads_write d file s.file
      next bytes hleft =>
        obtain rfl := h.kept.opened hopen
        obtain ⟨way, hlocate, hway⟩ := hp path file obstacle rfl (h.kept.left (by simp [hleft]))
        have hlocate' : (d.write file bytes).locate path = .ok way := by
          rw [locate_write, hlocate]
        rw [replace, hlocate']
        exact (leads_write d file bytes).trans (leads_create (d := d.write file bytes) hway s.file)
    next => exact .refl d

/-- On disks that have the same in its file a store holds the same. -/
theorem stored_load (hsame : ∀ path file s, b = log path file s → s.isOpen = true →
    e.read file = d.read file) : (b.load e).stored = (b.load d).stored := by
  cases b with
  | memory s => rfl
  | log path file s =>
    cases hs : s.isOpen with
    | false => rw [load_closed d _ _ hs, load_closed e _ _ hs]
    | true =>
      rw [load_open d _ _ hs, load_open e _ _ hs, hsame path file s rfl hs]
      simp [stored, LogStore.reread, LogStore.records, hs]

/-- Alike stores hold the same. -/
theorem Alike.stored_eq (h : Alike p b c) : b.stored = c.stored := by
  cases h with
  | memory h =>
    obtain ⟨counts, rfl⟩ := h
    rfl
  | log h =>
    obtain ⟨cache, counts, rfl⟩ := h.rest
    rfl

end Backend
end DocBase
