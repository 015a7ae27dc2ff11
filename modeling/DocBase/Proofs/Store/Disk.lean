import DocBase.Proofs.Action
import DocBase.Proofs.Keyed
import DocBase.Proofs.Text.Split
import DocBase.Store.Disk

/-! What the operations of a disk do to the files that paths lead to. Each of them touches the
one that its own path leads to and no other. -/
namespace DocBase

namespace Disk
open Keyed

/-! ## Ways -/

/-- The way that names lead from another one, whatever there is on the disk. -/
def follow (way : List String) : List String → List String
  | [] => way
  | ".." :: rest => follow way.dropLast rest
  | name :: rest => follow (way ++ [name]) rest

/-- The way to what a path stands for. -/
def wayOf (path : String) : List String :=
  follow [] (names path).dropLast ++ [(names path).getLast?.getD ""]

theorem follow_up (way rest : List String) : follow way (".." :: rest) = follow way.dropLast rest :=
  rfl

theorem follow_down {name : String} (hname : name ≠ "..") (way rest : List String) :
    follow way (name :: rest) = follow (way ++ [name]) rest := by
  rw [follow]
  exact fun h => hname h

theorem follow_append (way before rest : List String) :
    follow way (before ++ rest) = follow (follow way before) rest := by
  induction before generalizing way with
  | nil => rfl
  | cons name before ih =>
    by_cases hname : name = ".."
    · rw [hname, List.cons_append, follow_up, follow_up, ih]
    · rw [List.cons_append, follow_down hname, follow_down hname, ih]

theorem follow_of_down {rest : List String} (h : ".." ∉ rest) (way : List String) :
    follow way rest = way ++ rest := by
  induction rest generalizing way with
  | nil => rw [follow, List.append_nil]
  | cons name rest ih =>
    rw [List.mem_cons, not_or] at h
    rw [follow_down (Ne.symm h.1), ih h.2, List.append_assoc, List.singleton_append]

theorem mem_follow {way rest : List String} {name : String} (h : name ∈ follow way rest) :
    name ∈ way ∨ name ∈ rest := by
  induction rest generalizing way with
  | nil => exact Or.inl h
  | cons first rest ih =>
    by_cases hfirst : first = ".."
    · rw [hfirst, follow_up] at h
      rcases ih h with h | h
      · exact Or.inl (List.mem_of_mem_dropLast h)
      · exact Or.inr (List.mem_cons_of_mem _ h)
    · rw [follow_down hfirst] at h
      rcases ih h with h | h
      · rcases List.mem_append.mp h with h | h
        · exact Or.inl h
        · exact Or.inr (List.mem_singleton.mp h ▸ List.mem_cons_self)
      · exact Or.inr (List.mem_cons_of_mem _ h)

theorem slash_notMem_of_mem_names {path name : String} (h : name ∈ names path) :
    '/' ∉ name.toList := by
  have hparts : ∀ name ∈ ((Text.split '/' path.toList).filter
      fun p => p != [] && p != ['.']).map String.ofList, '/' ∉ name.toList := by
    intro name hname
    obtain ⟨part, hpart, rfl⟩ := List.mem_map.mp hname
    rw [String.toList_ofList]
    exact Text.notMem_of_mem_split (List.mem_of_mem_filter hpart)
  rw [names] at h
  split at h
  · rcases List.mem_cons.mp h with rfl | h
    · exact List.not_mem_nil
    · exact hparts name h
  · exact hparts name h

theorem slash_notMem_of_mem_wayOf {path name : String} (h : name ∈ wayOf path) :
    '/' ∉ name.toList := by
  rcases List.mem_append.mp h with h | h
  · rcases mem_follow h with h | h
    · cases h
    · exact slash_notMem_of_mem_names (List.mem_of_mem_dropLast h)
  · rw [List.mem_singleton] at h
    cases hlast : (names path).getLast? with
    | none =>
      rw [h, hlast]
      exact List.not_mem_nil
    | some last =>
      rw [h, hlast]
      exact slash_notMem_of_mem_names (List.mem_of_getLast? hlast)

/-- Names without slashes can be told from their key. -/
theorem key_inj {way other : List String} (hway : way ≠ []) (hother : other ≠ [])
    (hslash : ∀ name ∈ way, '/' ∉ name.toList) (hslash' : ∀ name ∈ other, '/' ∉ name.toList)
    (h : key way = key other) : way = other := by
  have hsplit : ∀ names : List String, names ≠ [] → (∀ name ∈ names, '/' ∉ name.toList) →
      (key names).toList.splitOn '/' = names.map String.toList := by
    intro names hnames hslash
    rw [key, String.toList_intercalate]
    refine List.splitOn_intercalate '/' ?_ ?_
    · exact List.forall_mem_map.mpr hslash
    · exact fun h => hnames (List.map_eq_nil_iff.mp h)
  have hlists : way.map String.toList = other.map String.toList := by
    rw [← hsplit way hway hslash, ← hsplit other hother hslash', h]
  exact List.map_injective_iff.mpr (fun _ _ => String.toList_inj.mp) hlists

theorem key_wayOf_inj {path other : String} (h : key (wayOf path) = key (wayOf other)) :
    wayOf path = wayOf other :=
  key_inj (by simp [wayOf]) (by simp [wayOf]) (fun _ => slash_notMem_of_mem_wayOf)
    (fun _ => slash_notMem_of_mem_wayOf) h

variable {d : Disk}

theorem exists_locate_of_canReplace {path other : String} (h : d.canReplace path other = .ok ()) :
    ∃ way, d.locate other = .ok way := by
  obtain ⟨_, -, h⟩ := bind_eq_ok h
  split at h
  · cases h
  · obtain ⟨way, hlocate, -⟩ := bind_eq_ok h
    exact ⟨way, hlocate⟩

theorem enter_eq_follow {way rest directory : List String}
    (h : d.enter way rest = .ok directory) : directory = follow way rest := by
  induction rest generalizing way with
  | nil => exact (Except.ok.inj h).symm
  | cons name rest ih =>
    by_cases hname : name = ".."
    · rw [hname, enter] at h
      rw [hname, follow_up]
      exact ih h
    · rw [enter] at h
      · obtain ⟨_, -, h⟩ := bind_eq_ok h
        dsimp only at h
        split at h
        · cases h
        split at h
        · cases h
        rw [follow_down hname]
        exact ih h
      · exact hname

/-- Where a path leads, if it leads anywhere. -/
theorem locate_eq_wayOf {path : String} {way : List String} (h : d.locate path = .ok way) :
    way = wayOf path := by
  obtain ⟨_, -, h⟩ := bind_eq_ok h
  obtain ⟨directory, hdirectory, h⟩ := bind_eq_ok h
  obtain ⟨_, -, h⟩ := bind_eq_ok h
  rw [wayOf, ← enter_eq_follow hdirectory]
  exact (Except.ok.inj h).symm

/-! ## Files -/

/-- The file that a path leads to, once its directories are there. -/
def linked (d : Disk) (path : String) : Option FileId := d.links.get? (key (wayOf path))

/-- Every path leads to a file of its own. -/
structure Sound (d : Disk) : Prop where
  ascending : Ascending d.links
  there {k : String} {file : FileId} (h : d.links.get? k = some file) : file < d.contents.size
  single {k l : String} {file : FileId} (hk : d.links.get? k = some file)
    (hl : d.links.get? l = some file) : k = l

theorem sound_empty : Sound {} :=
  ⟨ascending_nil, (fun h => nomatch h), fun h => nomatch h⟩

/-- From the one disk to the other the file under a key stays, and so do its bytes. -/
structure Spares (k : String) (d e : Disk) : Prop where
  link : e.links.get? k = d.links.get? k
  bytes {file : FileId} (h : d.links.get? k = some file) : e.read file = d.read file

variable {e : Disk} {k : String} {path other : String} {file : FileId}

theorem Spares.refl (k : String) (d : Disk) : Spares k d d := ⟨rfl, fun _ => rfl⟩

theorem Spares.trans {f : Disk} (h : Spares k d e) (h' : Spares k e f) : Spares k d f := by
  refine ⟨h'.link.trans h.link, fun hfile => ?_⟩
  rw [h'.bytes (h.link.trans hfile), h.bytes hfile]

/-- Only directories may be others. -/
structure SameFiles (d e : Disk) : Prop where
  links : e.links = d.links
  contents : e.contents = d.contents

theorem SameFiles.trans {f : Disk} (h : SameFiles d e) (h' : SameFiles e f) : SameFiles d f :=
  ⟨h'.links.trans h.links, h'.contents.trans h.contents⟩

theorem SameFiles.sound (h : SameFiles d e) (hd : d.Sound) : e.Sound := by
  obtain ⟨hlinks, hcontents⟩ := h
  refine ⟨hlinks ▸ hd.ascending, fun hk => ?_, fun hk hl => ?_⟩
  · rw [hcontents]
    exact hd.there (hlinks ▸ hk)
  · exact hd.single (hlinks ▸ hk) (hlinks ▸ hl)

theorem SameFiles.spares (h : SameFiles d e) (k : String) : Spares k d e := by
  refine ⟨by rw [h.links], fun _ => ?_⟩
  rw [read, read, h.contents]

section Directories
variable {R : Disk → Disk → Prop} (hrefl : ∀ d, R d d)
  (htrans : ∀ {d e f}, R d e → R e f → R d f)
  (hstep : ∀ d k, R d { d with directories := d.directories.insert k () })
include hrefl htrans hstep

theorem makeEach_of_steps (way rest : List String) : R d (d.makeEach way rest).2 := by
  induction rest generalizing d way with
  | nil => exact hrefl d
  | cons name rest ih =>
    by_cases hname : name = ".."
    · rw [hname, makeEach]
      exact ih _
    · rw [makeEach]
      · split
        · exact hrefl d
        dsimp only
        split
        · exact hrefl d
        · exact htrans (hstep d _) (ih _)
      · exact hname

/-- Directories are made one after another, so that the disk afterwards is related to the one
before as each new directory relates them. -/
theorem makeDirectories_of_steps (path : String) : R d (d.makeDirectories path).2 := by
  rw [makeDirectories]
  split
  · exact hrefl d
  · exact makeEach_of_steps hrefl htrans hstep _ _

end Directories

theorem sameFiles_makeDirectories (path : String) : SameFiles d (d.makeDirectories path).2 :=
  makeDirectories_of_steps (fun _ => ⟨rfl, rfl⟩) .trans (fun _ _ => ⟨rfl, rfl⟩) path

theorem read_write (hfile : file < d.contents.size) (bytes : Bytes) :
    (d.write file bytes).read file = bytes := by
  simp [read, write, hfile]

theorem write_read (d : Disk) (file : FileId) : d.write file (d.read file) = d := by
  have hcontents : d.contents.setIfInBounds file (d.read file) = d.contents := by
    apply Array.ext_getElem?
    intro i
    rw [Array.getElem?_setIfInBounds]
    split
    next h =>
      subst h
      split
      next hbound => rw [read, Array.getElem?_eq_getElem hbound, Option.getD_some]
      next hbound => rw [Array.getElem?_eq_none (Nat.not_lt.mp hbound)]
    next => rfl
  rw [write, hcontents]

theorem read_create (way : List String) (bytes : Bytes) :
    (d.create way bytes).2.read (d.create way bytes).1 = bytes := by
  simp [read, create]

theorem enter_write (file : FileId) (bytes : Bytes) (way rest : List String) :
    (d.write file bytes).enter way rest = d.enter way rest := by
  induction rest generalizing way with
  | nil => rfl
  | cons name rest ih =>
    by_cases hname : name = ".."
    · rw [hname, enter, enter, ih]
    · rw [enter, enter]
      · simp only [ih]
        rfl
      · exact hname
      · exact hname

theorem locate_write (file : FileId) (bytes : Bytes) (path : String) :
    (d.write file bytes).locate path = d.locate path := by
  rw [locate, locate]
  simp only [enter_write]

theorem Sound.write (hd : d.Sound) (file : FileId) (bytes : Bytes) :
    (d.write file bytes).Sound := by
  refine ⟨hd.ascending, fun hk => ?_, hd.single⟩
  rw [Disk.write, Array.size_setIfInBounds]
  exact hd.there hk

/-- What is written to the file at a path is for that file alone. -/
theorem spares_write (hd : d.Sound) (hfile : d.linked path = some file) (hk : k ≠ key (wayOf path))
    (bytes : Bytes) : Spares k d (d.write file bytes) := by
  refine ⟨rfl, fun {other} hother => ?_⟩
  have hne : file ≠ other := by
    rintro rfl
    exact hk (hd.single hother hfile)
  simp [read, write, hne]

theorem Sound.create (hd : d.Sound) (way : List String) (bytes : Bytes) :
    (d.create way bytes).2.Sound := by
  have hsize : (d.create way bytes).2.contents.size = d.contents.size + 1 := Array.size_push ..
  have hlinks : ∀ k, (d.create way bytes).2.links.get? k =
      if k = key way then some d.contents.size else d.links.get? k := by
    intro k
    by_cases hk : k = key way
    · rw [if_pos hk, hk]
      exact get?_insert_same _ _ _
    · rw [if_neg hk]
      exact get?_insert_ne hk _
  refine ⟨hd.ascending.insert _ _, fun {k file} hk => ?_, fun {k l file} hk hl => ?_⟩
  · rw [hsize]
    rw [hlinks] at hk
    split at hk
    · cases hk
      exact Nat.lt_succ_self _
    · exact Nat.lt_succ_of_lt (hd.there hk)
  · rw [hlinks] at hk hl
    split at hk
    next hkey =>
      cases hk
      split at hl
      next hkey' => rw [hkey, hkey']
      next => exact absurd (hd.there hl) (Nat.lt_irrefl _)
    next =>
      split at hl
      next =>
        cases hl
        exact absurd (hd.there hk) (Nat.lt_irrefl _)
      next => exact hd.single hk hl

theorem spares_create (hd : d.Sound) {way : List String} (hk : k ≠ key way) (bytes : Bytes) :
    Spares k d (d.create way bytes).2 := by
  refine ⟨get?_insert_ne hk _, fun {file} hfile => ?_⟩
  have hthere := hd.there hfile
  simp [read, create, Array.getElem?_push, Nat.ne_of_lt hthere]

/-- Opening leads to the file of the path, which is there from then on. -/
theorem openFile_spec (hd : d.Sound) (path : String) :
    (d.openFile path).2.Sound ∧ (∀ k, k ≠ key (wayOf path) → Spares k d (d.openFile path).2) ∧
      ∀ file, (d.openFile path).1 = .ok file → (d.openFile path).2.linked path = some file := by
  rw [openFile]
  split
  · exact ⟨hd, fun k _ => .refl k d, fun _ h => nomatch h⟩
  next way hlocate =>
    rw [linked, ← locate_eq_wayOf hlocate]
    split
    · exact ⟨hd, fun k _ => .refl k d, fun _ h => nomatch h⟩
    split
    next file hfile =>
      refine ⟨hd, fun k _ => .refl k d, fun other hother => ?_⟩
      cases hother
      exact hfile
    next =>
      refine ⟨hd.create _ _, fun k hk => spares_create hd hk _, fun file hfile => ?_⟩
      cases hfile
      exact get?_insert_same _ _ _

theorem remove_spec (hd : d.Sound) (path : String) :
    (d.remove path).2.Sound ∧ ∀ k, k ≠ key (wayOf path) → Spares k d (d.remove path).2 := by
  rw [remove]
  split
  · exact ⟨hd, fun k _ => .refl k d⟩
  · exact ⟨hd, fun k _ => .refl k d⟩
  next way hlocate =>
    rw [← locate_eq_wayOf hlocate]
    split
    · exact ⟨hd, fun k _ => .refl k d⟩
    have hlink : ∀ {k file}, (d.links.erase (key way)).get? k = some file →
        d.links.get? k = some file := fun hk => ((get?_erase_eq_some hd.ascending).mp hk).2
    refine ⟨⟨hd.ascending.erase _, fun hk => hd.there (hlink hk),
      fun hk hl => hd.single (hlink hk) (hlink hl)⟩, fun k hk => ⟨?_, fun _ => rfl⟩⟩
    exact get?_erase_ne hd.ascending hk

end Disk
end DocBase
