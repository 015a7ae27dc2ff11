import DocBase.Database.Basic
import DocBase.Proofs.Store.Driver

/-! Where the logs of collections lie. Below the root of the store each has a file that is
named for the collection, in the directories that are named by the database. Names of
databases are told apart by their parts alone: empty ones and single dots stay where they are. -/
namespace DocBase
open Keyed Disk

namespace Log

/-! ## Components of paths -/

/-- What there is to a path: its first part as it stands, and the others that do not stay
where they are. -/
def components (path : List Char) : List (List Char) :=
  if path = [] then []
  else (Text.split '/' path).take 1 ++ ((Text.split '/' path).drop 1).filter fun p => !isIdle p

/-- What can stand between two slashes and lead from a directory to something in it. -/
structure IsName (name : List Char) : Prop where
  slash : '/' ∉ name
  idle : isIdle name = false
  up : name ≠ ['.', '.']

variable {root db name path : List Char}

theorem IsName.split_eq (h : IsName name) : Text.split '/' name = [name] :=
  Text.split_of_notMem h.slash

theorem IsName.locationNames_eq (h : IsName name) : locationNames name = [name] := by
  rw [locationNames, h.split_eq, List.filter_cons_of_pos (by rw [h.idle]; rfl), List.filter_nil]

theorem IsName.isLocation (h : IsName name) : isLocation name = true := by
  simp [Log.isLocation, h.split_eq, h.idle, Ne.symm h.up]

theorem locationNames_append (before after : List Char) :
    locationNames (before ++ '/' :: after) = locationNames before ++ locationNames after := by
  rw [locationNames, Text.split_append, List.filter_append]
  rfl

theorem components_append (hpath : path ≠ []) (after : List Char) :
    components (path ++ '/' :: after) = components path ++ locationNames after := by
  rw [components, components, if_neg hpath, if_neg (by simp [hpath]), Text.split_append]
  cases hsplit : Text.split '/' path with
  | nil => exact absurd hsplit (Text.split_ne_nil path)
  | cons first rest => simp [locationNames]

theorem components_of_isLocation (h : isLocation path = true) :
    components path = locationNames path := by
  rw [components, locationNames]
  rw [isLocation] at h
  cases hsplit : Text.split '/' path with
  | nil => exact absurd hsplit (Text.split_ne_nil path)
  | cons first rest =>
    rw [hsplit] at h
    have hfirst : isIdle first = false := by simp_all
    have hpath : path ≠ [] := by
      rintro rfl
      cases hsplit
      cases hfirst
    simp [hpath, hfirst]

theorem components_joinPath (root : List Char) (h : isLocation path = true) :
    components (joinPath root path) = components root ++ locationNames path := by
  rw [joinPath]
  split
  next hroot =>
    rcases hroot with rfl | hlast
    · exact components_of_isLocation h
    · obtain ⟨before, rfl⟩ := List.getLast?_eq_some_iff.mp hlast
      rw [List.append_assoc, List.singleton_append]
      cases before with
      | nil =>
        have hsplit : Text.split '/' ([] ++ '/' :: path) = [] :: Text.split '/' path := rfl
        rw [components, if_neg (by simp), hsplit]
        rfl
      | cons c cs =>
        rw [components_append (by simp), components_append (by simp)]
        simp [locationNames, Text.split, isIdle]
  next hroot =>
    rw [not_or] at hroot
    exact components_append hroot.1 path

/-! ## Parents -/

/-- A path without the slashes and the idle parts at its end. -/
def trimmed (path : List Char) : List Char := (trimReversed path.reverse).reverse

theorem split_reverse (cs : List Char) : ∃ idle, (∀ part ∈ idle, isIdle part = true) ∧
    Text.split '/' cs.reverse = Text.split '/' (trimReversed cs).reverse ++ idle := by
  induction cs using trimReversed.induct with
  | case1 rest ih =>
    obtain ⟨idle, hidle, hsplit⟩ := ih
    refine ⟨idle ++ [[]], ?_, ?_⟩
    · rw [List.forall_mem_append]
      exact ⟨hidle, by simp [isIdle]⟩
    · rw [trimReversed, List.reverse_cons, Text.split_append, hsplit, List.append_assoc]
      rfl
  | case2 rest ih =>
    obtain ⟨idle, hidle, hsplit⟩ := ih
    refine ⟨idle ++ [['.']], ?_, ?_⟩
    · rw [List.forall_mem_append]
      exact ⟨hidle, by simp [isIdle]⟩
    · rw [trimReversed, List.reverse_cons, List.reverse_cons, List.append_assoc,
        List.singleton_append, Text.split_append, hsplit, List.append_assoc]
      rfl
  | case3 cs hslash hdot =>
    refine ⟨[], by simp, ?_⟩
    rw [trimReversed, List.append_nil]
    · exact hslash
    · exact hdot

theorem split_trimmed (path : List Char) : ∃ idle, (∀ part ∈ idle, isIdle part = true) ∧
    Text.split '/' path = Text.split '/' (trimmed path) ++ idle := by
  have hsplit := split_reverse path.reverse
  rwa [List.reverse_reverse] at hsplit

theorem filter_of_idle {parts : List (List Char)} (h : ∀ part ∈ parts, isIdle part = true) :
    parts.filter (fun p => !isIdle p) = [] := by
  rw [List.filter_eq_nil_iff]
  intro part hpart
  simp [h part hpart]

theorem components_trimmed (htrimmed : trimmed path ≠ []) :
    components (trimmed path) = components path := by
  have hpath : path ≠ [] := by
    rintro rfl
    exact htrimmed rfl
  obtain ⟨idle, hidle, hsplit⟩ := split_trimmed path
  rw [components, components, if_neg hpath, if_neg htrimmed, hsplit]
  cases hparts : Text.split '/' (trimmed path) with
  | nil => exact absurd hparts (Text.split_ne_nil _)
  | cons first rest => simp [filter_of_idle hidle]

theorem idle_of_trimmed (htrimmed : trimmed path = []) :
    ∀ part ∈ components path, isIdle part = true := by
  obtain ⟨idle, hidle, hsplit⟩ := split_trimmed path
  rw [htrimmed] at hsplit
  rw [components, hsplit]
  split
  · exact fun part hpart => absurd hpart List.not_mem_nil
  · change ∀ part ∈ [[]] ++ idle.filter (fun p => !isIdle p), isIdle part = true
    rw [filter_of_idle hidle, List.append_nil, List.forall_mem_singleton]
    rfl

theorem IsName.trimReversed_eq (h : IsName name) (rest : List Char) :
    trimReversed (name.reverse ++ '/' :: rest) = name.reverse ++ '/' :: rest := by
  obtain ⟨hslash, hidle, -⟩ := h
  have hslash' : '/' ∉ name.reverse := by rwa [List.mem_reverse]
  have hreverse : name = name.reverse.reverse := (List.reverse_reverse name).symm
  cases hname : name.reverse with
  | nil =>
    rw [hreverse, hname] at hidle
    cases hidle
  | cons c cs =>
    rw [hname, List.mem_cons, not_or] at hslash'
    rw [trimReversed]
    · rintro rest' ⟨⟩
      exact hslash'.1 rfl
    · intro rest' heq
      cases cs with
      | nil =>
        cases heq
        rw [hreverse, hname] at hidle
        cases hidle
      | cons e es =>
        cases heq
        exact hslash'.2 List.mem_cons_self

theorem parent_append (hname : IsName name) (htrimmed : trimmed path ≠ []) :
    parent (path ++ '/' :: name) = trimmed path := by
  have hdrop : (name.reverse ++ '/' :: path.reverse).dropWhile (· != '/') =
      '/' :: path.reverse := by
    rw [List.dropWhile_append_of_pos]
    · rfl
    · intro c hc
      rw [bne_iff_ne]
      rintro rfl
      exact hname.slash (List.mem_reverse.mp hc)
  have hup : (trimReversed ((trimReversed (path ++ '/' :: name).reverse).dropWhile
      (· != '/'))).reverse = trimmed path := by
    rw [List.reverse_append, List.reverse_cons, List.append_assoc, List.singleton_append,
      hname.trimReversed_eq, hdrop, trimReversed]
    rfl
  rw [parent, hup, if_neg (by simp [htrimmed])]

/-! ## Files of collections -/

/-- The file of a collection. -/
def logName (name : List Char) : List Char := name ++ ".log".toList

/-- The file that a compaction of it writes first. -/
def compactName (name : List Char) : List Char := name ++ ".compact".toList

/-- A file below a root, in the directories that a database names. -/
def fileIn (root db file : List Char) : List Char := joinPath (trimmed (joinPath root db)) file

theorem IsName.append (hname : IsName name) {ending : List Char} (hslash : '/' ∉ ending)
    (hlength : 2 < ending.length) : IsName (name ++ ending) := by
  have hlong : ∀ short : List Char, short.length ≤ 2 → name ++ ending ≠ short := by
    rintro short hshort rfl
    rw [List.length_append] at hshort
    omega
  refine ⟨?_, ?_, hlong _ (by decide)⟩
  · rw [List.mem_append, not_or]
    exact ⟨hname.slash, hslash⟩
  · simp [isIdle, hlong [] (by decide), hlong ['.'] (by decide)]

theorem IsName.log (hname : IsName name) : IsName (logName name) :=
  hname.append (by decide) (by decide)

theorem IsName.compact (hname : IsName name) : IsName (compactName name) :=
  hname.append (by decide) (by decide)

theorem isLocation_append (hname : IsName name) (db : List Char) :
    isLocation (db ++ '/' :: name) = isLocation db := by
  rw [isLocation, isLocation, Text.split_append, hname.split_eq]
  cases hsplit : Text.split '/' db with
  | nil => exact absurd hsplit (Text.split_ne_nil db)
  | cons first rest => simp [hname.up.symm]

theorem joinPath_append (root db name : List Char) :
    joinPath root (db ++ '/' :: name) = joinPath root db ++ '/' :: name := by
  rw [joinPath, joinPath]
  split
  · rw [List.append_assoc]
  · rw [List.append_assoc, List.cons_append]

theorem exists_joinPath_eq (root : List Char) :
    ∃ before, ∀ location, joinPath root location = before ++ location := by
  by_cases hroot : root = [] ∨ root.getLast? = some '/'
  · exact ⟨root, fun location => if_pos hroot⟩
  · refine ⟨root ++ ['/'], fun location => ?_⟩
    rw [joinPath, if_neg hroot, List.append_assoc, List.singleton_append]

theorem locationNames_ne_nil (h : isLocation db = true) : locationNames db ≠ [] := by
  rw [isLocation] at h
  rw [locationNames]
  cases hsplit : Text.split '/' db with
  | nil => exact absurd hsplit (Text.split_ne_nil db)
  | cons first rest =>
    rw [hsplit] at h
    have hfirst : isIdle first = false := by simp_all
    simp [hfirst]

theorem up_notMem_locationNames (h : isLocation db = true) : ['.', '.'] ∉ locationNames db := by
  intro hmem
  rw [isLocation, Bool.and_eq_true] at h
  simp [List.mem_of_mem_filter hmem] at h

theorem trimmed_joinPath_ne_nil (root : List Char) (h : isLocation db = true) :
    trimmed (joinPath root db) ≠ [] := by
  intro htrimmed
  have hidle := idle_of_trimmed htrimmed
  rw [components_joinPath root h] at hidle
  obtain ⟨part, hpart⟩ := List.exists_mem_of_ne_nil _ (locationNames_ne_nil h)
  have hactive := (List.mem_filter.mp hpart).2
  rw [hidle part (List.mem_append_right _ hpart)] at hactive
  cases hactive

/-- The log of a collection, unless its database has no name for directories. -/
theorem path?_append (hname : IsName name) (root db : List Char) :
    path? root (db ++ '/' :: name) =
      if isLocation db then some (fileIn root db (logName name)) else none := by
  rw [path?, isLocation_append hname]
  cases hdb : isLocation db with
  | false => rfl
  | true =>
    rw [locationNames_append, hname.locationNames_eq, joinPath_append,
      parent_append hname (trimmed_joinPath_ne_nil root hdb)]
    simp [fileIn, logName]

theorem components_fileIn (root : List Char) (h : isLocation db = true) {file : List Char}
    (hfile : IsName file) :
    components (fileIn root db file) = components root ++ locationNames db ++ [file] := by
  rw [fileIn, components_joinPath _ hfile.isLocation,
    components_trimmed (trimmed_joinPath_ne_nil root h), components_joinPath root h,
    hfile.locationNames_eq]

theorem compactPath_fileIn (root db name : List Char) :
    compactPath (fileIn root db (logName name)) = fileIn root db (compactName name) := by
  obtain ⟨before, hbefore⟩ := exists_joinPath_eq (trimmed (joinPath root db))
  have hlength : (before ++ logName name).length - ".log".length = (before ++ name).length := by
    simp only [logName, List.length_append, String.length_toList]
    omega
  rw [fileIn, fileIn, hbefore, hbefore, compactPath, hlength, logName, ← List.append_assoc,
    List.take_left, List.append_assoc]
  rfl

end Log

namespace Disk
open Log

/-- Components from where one is. -/
def rooted : List (List Char) → List (List Char)
  | ['.'] :: rest => rest
  | parts => parts

theorem names_eq (path : String) :
    names path = (rooted (components path.toList)).map String.ofList := by
  have hactive : ∀ part : List Char, (part != [] && part != ['.']) = !isIdle part := by
    intro part
    rw [isIdle, Bool.not_or]
    rfl
  rw [names, components]
  simp only [hactive]
  cases path.toList with
  | nil => rfl
  | cons c cs =>
    by_cases hc : c = '/'
    · subst hc
      rfl
    · have hslash : (c :: cs).head? ≠ some '/' := by simpa using hc
      have hfirst : [] ∉ (Text.split '/' (c :: cs)).take 1 := by
        rw [Text.split, if_neg hc]
        split <;> simp
      rw [if_neg hslash, if_neg (List.cons_ne_nil _ _)]
      cases hsplit : Text.split '/' (c :: cs) with
      | nil => exact absurd hsplit (Text.split_ne_nil _)
      | cons first rest =>
        rw [hsplit] at hfirst
        by_cases hdot : first = ['.']
        · rw [hdot]
          rfl
        · have hidle : isIdle first = false := by simp_all [isIdle]
          simp [hidle, rooted, hdot]

theorem rooted_append {parts : List (List Char)} (h : ['.'] ∉ parts) (before : List (List Char)) :
    rooted (before ++ parts) = rooted before ++ parts := by
  cases before with
  | nil =>
    cases parts with
    | nil => rfl
    | cons first rest =>
      rw [List.mem_cons, not_or] at h
      rw [List.nil_append, rooted.eq_def]
      split
      next heq =>
        cases heq
        exact absurd rfl h.1
      next => rfl
  | cons first rest =>
    by_cases hdot : first = ['.']
    · rw [hdot]
      rfl
    · simp [rooted, hdot]

theorem wayOf_fileIn (root : List Char) {db file : List Char} (h : isLocation db = true)
    (hfile : IsName file) :
    wayOf (String.ofList (fileIn root db file)) =
      follow [] (names (String.ofList root)) ++
        (locationNames db ++ [file]).map String.ofList := by
  have hdot : ['.'] ∉ locationNames db ++ [file] := by
    have hdb : ['.'] ∉ locationNames db := fun hmem => nomatch (List.mem_filter.mp hmem).2
    have hlast : ['.'] ≠ file := by
      rintro rfl
      cases hfile.idle
    simp [hdb, hlast]
  have hup : ".." ∉ (locationNames db).map String.ofList := by
    intro hmem
    obtain ⟨part, hpart, heq⟩ := List.mem_map.mp hmem
    have hpart' : part = ['.', '.'] := String.ofList_injective heq
    exact up_notMem_locationNames h (hpart' ▸ hpart)
  have hnames : names (String.ofList (fileIn root db file)) =
      names (String.ofList root) ++ (locationNames db).map String.ofList ++
        [String.ofList file] := by
    rw [names_eq, names_eq, String.toList_ofList, String.toList_ofList, components_fileIn root h hfile,
      List.append_assoc, rooted_append hdot, List.map_append, List.map_append, List.append_assoc]
    rfl
  rw [wayOf, hnames, List.dropLast_concat, List.getLast?_concat, follow_append,
    follow_of_down hup, List.map_append, List.append_assoc]
  rfl

end Disk

namespace Log

theorem isName_of_isCollectionName {name : String} (h : Database.isCollectionName name = true) :
    IsName name.toList := by
  simp only [Database.isCollectionName, Bool.and_eq_true, bne_iff_ne, Bool.not_eq_true'] at h
  obtain ⟨⟨⟨⟨hempty, -⟩, hchars⟩, hdot⟩, hup⟩ := h
  refine ⟨fun hslash => ?_, ?_, fun heq => hup (String.toList_inj.mp heq)⟩
  · rw [List.any_eq_false] at hchars
    exact hchars '/' hslash rfl
  · have hnil : name.toList ≠ [] := by simpa using hempty
    have hidle : name.toList ≠ ['.'] := fun heq => hdot (String.toList_inj.mp heq)
    simp [isIdle, hnil, hidle]

/-- The log of a collection, if its database has a name for directories. -/
theorem path_eq_ok {c : StoreConfig} {root : String} (hroot : c.path = some root) {db : Database}
    {name : String} (hname : Database.isCollectionName name = true) {p : String}
    (hp : path c (db.location name) = .ok p) :
    isLocation db.config.name.toList = true ∧
      p = String.ofList (fileIn root.toList db.config.name.toList (logName name.toList)) := by
  have hlocation : (db.location name).toList =
      db.config.name.toList ++ '/' :: name.toList := by
    rw [Database.location, String.toList_append, String.toList_append, List.append_assoc]
    rfl
  rw [path, hroot] at hp
  simp only [hlocation, path?_append (isName_of_isCollectionName hname)] at hp
  cases hdb : isLocation db.config.name.toList with
  | false =>
    rw [hdb] at hp
    cases hp
  | true =>
    rw [hdb] at hp
    exact ⟨rfl, (Except.ok.inj hp).symm⟩

section
variable (root : List Char) {db' file file' : List Char} (hdb : isLocation db = true)
  (hdb' : isLocation db' = true) (hfile : IsName file) (hfile' : IsName file')
include hdb hdb' hfile hfile'

theorem components_fileIn_inj :
    components (fileIn root db file) = components (fileIn root db' file') ↔
      locationNames db = locationNames db' ∧ file = file' := by
  rw [components_fileIn root hdb hfile, components_fileIn root hdb' hfile', List.append_assoc,
    List.append_assoc, List.append_right_inj, List.append_singleton_inj]

/-- Also the disk tells them apart. -/
theorem key_wayOf_fileIn_inj :
    key (wayOf (String.ofList (fileIn root db file))) =
        key (wayOf (String.ofList (fileIn root db' file'))) ↔
      locationNames db = locationNames db' ∧ file = file' := by
  have hinj : Function.Injective String.ofList := fun _ _ => String.ofList_injective
  have hways : wayOf (String.ofList (fileIn root db file)) =
        wayOf (String.ofList (fileIn root db' file')) ↔
      locationNames db ++ [file] = locationNames db' ++ [file'] := by
    rw [wayOf_fileIn root hdb hfile, wayOf_fileIn root hdb' hfile', List.append_right_inj,
      List.map_inj_right hinj]
  rw [← List.append_singleton_inj, ← hways]
  exact ⟨key_wayOf_inj, congrArg key⟩

end

theorem compactPathOf_fileIn (root db name : List Char) :
    compactPathOf (String.ofList (fileIn root db (logName name))) =
      String.ofList (fileIn root db (compactName name)) := by
  rw [compactPathOf.eq_1, String.toList_ofList, compactPath_fileIn]

theorem logName_ne_compactName (name name' : List Char) : logName name ≠ compactName name' := by
  intro h
  have hlast := congrArg List.getLast? h
  rw [logName, compactName, List.getLast?_append, List.getLast?_append] at hlast
  cases hlast

theorem key_wayOf_fileIn_ne_nil (root : List Char) {file : List Char}
    (hdb : isLocation db = true) (hfile : IsName file) :
    key (wayOf (String.ofList (fileIn root db file))) ≠ key [] := by
  intro hkey
  have hroot : wayOf (String.ofList (fileIn root db file)) = [""] :=
    key_inj (by simp [wayOf]) (by simp) (fun _ => slash_notMem_of_mem_wayOf) (by simp) hkey
  have hlast := congrArg List.getLast? hroot
  rw [wayOf_fileIn root hdb hfile, List.map_append, ← List.append_assoc] at hlast
  have hnil : file = [] := by simpa using hlast
  rw [hnil] at hfile
  cases hfile.idle

/-- Logs of collections below one root lie strictly below it, and none is where a compaction of
another one writes. Two of them lie at the same place if and only if the collections have the
same name and the names of their databases have the same parts. Where they do not, opening,
removing and writing back the one leaves the file of the other as it is. -/
theorem path_apart {root : String} {c c' : StoreConfig} (hroot : c.path = some root)
    (hroot' : c'.path = some root) {db db' : Database} {name name' : String}
    (hname : Database.isCollectionName name = true)
    (hname' : Database.isCollectionName name' = true) {p p' : String}
    (hp : path c (db.location name) = .ok p) (hp' : path c' (db'.location name') = .ok p') :
    (∃ below, below ≠ [] ∧ ['.', '.'] ∉ below ∧
        components p.toList = components root.toList ++ below) ∧
      (components p.toList = components p'.toList ↔
        locationNames db.config.name.toList = locationNames db'.config.name.toList ∧
          name = name') ∧
      components p.toList ≠ components (compactPathOf p').toList ∧
      (components p.toList ≠ components p'.toList → ∀ disk : Disk, disk.Sound →
        Spares (key (wayOf p')) disk (StoreDriver.openLog p c disk).2 ∧
        Spares (key (wayOf p')) disk (StoreDriver.removeLog p disk).2 ∧
        ∀ file, disk.linked p = some file → disk.linked p' ≠ some file ∧
          ∀ s, Spares (key (wayOf p')) disk ((Backend.log p file s).flush disk).2) := by
  obtain ⟨hdb, rfl⟩ := path_eq_ok hroot hname hp
  obtain ⟨hdb', rfl⟩ := path_eq_ok hroot' hname' hp'
  have hfile := isName_of_isCollectionName hname
  have hfile' := isName_of_isCollectionName hname'
  have hkey := key_wayOf_fileIn_inj root.toList hdb hdb' hfile.log hfile'.log
  have hcompact := key_wayOf_fileIn_inj root.toList hdb' hdb hfile'.log hfile.compact
  have hlogs : logName name.toList = logName name'.toList ↔ name = name' := by
    rw [logName, logName, List.append_left_inj, String.toList_inj]
  rw [compactPathOf_fileIn, String.toList_ofList, String.toList_ofList, String.toList_ofList,
    components_fileIn_inj root.toList hdb hdb' hfile.log hfile'.log, hlogs]
  refine ⟨⟨_, ?_, ?_, by rw [components_fileIn _ hdb hfile.log, List.append_assoc]⟩, Iff.rfl,
    fun h => ?_, fun hne disk hdisk => ?_⟩
  · exact List.append_ne_nil_of_right_ne_nil _ (List.cons_ne_nil _ _)
  · rw [List.mem_append, List.mem_singleton, not_or]
    exact ⟨up_notMem_locationNames hdb, hfile.log.up.symm⟩
  · rw [components_fileIn_inj root.toList hdb hdb' hfile.log hfile'.compact] at h
    exact logName_ne_compactName _ _ h.2
  · rw [Ne, components_fileIn_inj root.toList hdb hdb' hfile.log hfile'.log, ← hkey] at hne
    have hlog : key (wayOf (String.ofList (fileIn root.toList db'.config.name.toList
        (logName name'.toList)))) ≠ _ := Ne.symm hne
    refine ⟨(StoreDriver.openLog_spec hdisk _ c).2.1 _ hlog, ?_, fun file hlinked => ⟨?_, fun s => ?_⟩⟩
    · refine (StoreDriver.removeLog_spec hdisk _).2 _ hlog ?_
      rw [compactPathOf_fileIn]
      exact fun h => logName_ne_compactName _ _ (hcompact.mp h).2
    · exact fun hlinked' => hlog (hdisk.single hlinked' hlinked)
    · exact (Backend.flush_spares hdisk hlinked s).2 _ hlog (key_wayOf_fileIn_ne_nil _ hdb' hfile'.log)

/-- Two databases that may be open side by side, and whose collections of one name are kept in
one file. -/
theorem path_apart_but_for_slash :
    let c : StoreConfig := { path := some "r" }
    let db : Database := { config := { name := "a" }, driver := .log }
    let db' : Database := { config := { name := "a/" }, driver := .log }
    db.config.validate = .ok () ∧ db'.config.validate = .ok () ∧
      ∃ p p', path c (db.location "b") = .ok p ∧ path c (db'.location "b") = .ok p' ∧
        components p.toList = components p'.toList := by
  intro c db db'
  have hname : Database.isCollectionName "b" = true := by decide
  have hp : path c (db.location "b") = .ok "r/a/b.log" := by cbv
  have hp' : path c (db'.location "b") = .ok "r/a/b.log" := by cbv
  obtain ⟨-, hsame, -⟩ := path_apart rfl rfl hname hname hp hp'
  exact ⟨rfl, rfl, _, _, hp, hp', hsame.mpr ⟨by decide, rfl⟩⟩

end Log
end DocBase
