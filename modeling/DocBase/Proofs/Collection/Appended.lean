import DocBase.Proofs.Collection.Ledger
import DocBase.Proofs.Document.Elements

/-! Patches that put several values behind a list of a stored document. Their writes come in the
order of the paths, and not of the indices. -/
namespace DocBase
open Keyed

/-! ## Paths behind a list -/
namespace Document
variable {d : Document} {path : String} {v : Value}

theorem WellFormed.isReserved_of_get? (h : d.WellFormed) (hget : d.get? path = some v) :
    isReserved path = false := by
  obtain ⟨s, rest, hsegments, hs⟩ := exists_first_segment path
  rw [Document.get?, Value.get?, hsegments, Value.at?_cons] at hget
  obtain ⟨⟨step, part⟩, hinto, -⟩ := Option.bind_eq_some_iff.mp hget
  obtain ⟨hstep, hpart⟩ := Value.into?_eq_some.mp hinto
  cases hstep
  rw [← hs]
  exact h.unreserved (s, part) (mem_of_get? hpart)

end Document

namespace Update
variable {path : String} {vs : List Value} {n : Nat}

theorem isReserved_element (h : Document.isReserved path = false) (i : Nat) :
    Document.isReserved (Path.element path i) = false := by
  rw [Document.isReserved, Path.toList_element]
  rw [Document.isReserved] at h
  cases hpath : path.toList with
  | nil => rfl
  | cons c cs => rwa [hpath] at h

theorem any_isEmpty_element (path : String) (i : Nat) :
    (Path.segments (Path.element path i)).any (·.isEmpty) = true ↔ "" ∈ Path.segments path := by
  have hdigits : (toString i).isEmpty = false := by
    simp
  rw [Path.segments_element, List.any_append, List.any_cons, hdigits, List.any_nil,
    Bool.or_false, Bool.or_false, List.any_eq_true]
  simp

/-- A patch behind a list passes if its path has all its segments. -/
theorem check_appending (h : Document.isReserved path = false) (hfull : "" ∉ Path.segments path)
    (n : Nat) (vs : List Value) : (patch (appending path n vs) []).check = .ok () := by
  cases hcheck : (patch (appending path n vs) []).check with
  | ok u => rfl
  | error e =>
    obtain ⟨before, key, after, hkeys, -, herror⟩ := forM_eq_error_iff.mp hcheck
    rw [List.append_nil] at hkeys
    obtain ⟨i, -, -, rfl⟩ := mem_keys_appending.mp
      (hkeys ▸ List.mem_append_right before List.mem_cons_self)
    rw [checkPath, if_neg (mt (any_isEmpty_element path i).mp hfull),
      isReserved_element h] at herror
    cases herror

theorem check_appending_of_empty (hempty : "" ∈ Path.segments path) (hvs : vs ≠ []) (n : Nat) :
    ∃ i, n ≤ i ∧ i < n + vs.length ∧ (patch (appending path n vs) []).check =
      .error (.constraint (Path.element path i) .invalidPath) := by
  have hmem : Path.element path n ∈ Keyed.keys (appending path n vs) :=
    mem_keys_appending.mpr ⟨n, le_rfl, by have := List.length_pos_iff.mpr hvs; omega, rfl⟩
  obtain ⟨key, rest, hkeys⟩ := List.exists_cons_of_ne_nil (List.ne_nil_of_mem hmem)
  obtain ⟨i, hfrom, hto, rfl⟩ := mem_keys_appending.mp (hkeys ▸ List.mem_cons_self)
  refine ⟨i, hfrom, hto, forM_eq_error_iff.mpr
    ⟨[], _, rest, by rw [hkeys, List.append_nil]; rfl, nofun, ?_⟩⟩
  rw [checkPath, if_pos ((any_isEmpty_element path i).mpr hempty)]

end Update

namespace Collection
variable {σ : Type} [RecordStore σ] [LawfulStore σ] {c : Collection σ}

/-- Without a schema what an update makes of a stored document is stored and read back, unless its
record is too long or refused by the store. -/
theorem update_of_apply (hready : LawfulStore.Ready c.store) (hschema : c.schema = none)
    {id : String} {record : Bytes}
    (hrecord : (LawfulStore.records c.store).get? id = some record) {d applied : Document}
    (hd : Document.decode record = .ok d) {upd : Update} (hupd : upd.WellFormed)
    (hcheck : upd.check = .ok ()) (happly : upd.apply d = .ok applied) (now : Int64) :
    let w := { applied with
      id := some id
      createdAt := d.createdAt
      updatedAt := some (if now < d.updatedAt.getD 0 then d.updatedAt.getD 0 else now) }
    match encode c.maxDocumentSize w with
    | .ok r =>
      (∃ t, update now id upd c = (.ok w, t) ∧
        Became c t ((LawfulStore.records c.store).insert id r) (mapValues (·.add id w) c.indexes) ∧
        (get? id t).1 = if w.nesting ≤ Json.depthLimit then .ok (some w)
          else .error (.corrupt id .invalidJson)) ∨
      ∃ e t, update now id upd c = (.error (.store e), t) ∧
        Became c t (LawfulStore.records c.store) c.indexes
    | .error e => ∃ t, update now id upd c = (.error e, t) ∧
        Became c t (LawfulStore.records c.store) c.indexes := by
  intro w
  have hfit : c.fitSchema applied = .ok applied := by rw [fitSchema, hschema]
  have hrun := update_of_fit hready now hcheck hrecord hd happly hfit
  dsimp only at hrun
  cases hencode : encode c.maxDocumentSize w with
  | error e =>
    rw [hencode] at hrun
    exact hrun
  | ok r =>
    rw [hencode] at hrun
    refine hrun.imp_left ?_
    rintro ⟨t, hok, ht⟩
    refine ⟨t, hok, ht, ?_⟩
    obtain ⟨hfinite, rfl⟩ := encode_eq_ok hencode
    have happlied := Update.wellFormed_apply hupd (Document.wellFormed_of_decode hd) hcheck happly
    have hw : w.WellFormed := ⟨happlied.1, happlied.2, happlied.3⟩
    obtain ⟨u, hread, -⟩ := get?_spec ht.ready id
    rw [hread, ht.records, get?_insert_same]
    dsimp only
    rw [decode, Document.decode_encode hw hfinite]
    split <;> rfl

/-- A patch behind a list is refused at one of its own paths, before anything is written. -/
theorem update_of_refused (hready : LawfulStore.Ready c.store) {id : String} {record : Bytes}
    (hrecord : (LawfulStore.records c.store).get? id = some record) {d : Document}
    (hd : Document.decode record = .ok d) {path : String}
    (hreserved : Document.isReserved path = false) {vs : List Value} (hvs : vs ≠ []) {n : Nat}
    (h : "" ∉ Path.segments path → Update.RefusedAt path (Update.appending path n vs) d)
    (now : Int64) :
    ∃ i reason t, n ≤ i ∧ i < n + vs.length ∧
      update now id (.patch (Update.appending path n vs) []) c =
        (.error (.validation (.constraint (Path.element path i) reason)), t) ∧
      Became c t (LawfulStore.records c.store) c.indexes := by
  by_cases hfull : "" ∉ Path.segments path
  · obtain ⟨i, hi, hwrites⟩ := h hfull
    have hcheck := Update.check_appending hreserved hfull n vs
    have hprepare : c.prepareUpdate now id (.patch (Update.appending path n vs) []) d =
        .error (.validation (.constraint (Path.element path i)
          (.conflict (.invalidIndex (Path.element path i) path)))) := by
      rw [prepareUpdate, Update.apply, hwrites]
      rfl
    obtain ⟨t, herror, ht⟩ := update_of_prepareUpdate_error hready hcheck hrecord hd hprepare
    obtain ⟨j, hfrom, hto, hij⟩ := Update.mem_keys_appending.mp hi
    rw [← Path.element_injective hij] at hfrom hto
    exact ⟨i, _, t, hfrom, hto, herror, ht⟩
  · obtain ⟨i, hfrom, hto, hcheck⟩ := Update.check_appending_of_empty (not_not.mp hfull) hvs n
    exact ⟨i, _, c, hfrom, hto, update_of_check_error hcheck, Became.refl hready⟩

/-- One patch puts values behind a list of a stored document, where the indices that they get are
written with equally many digits and no segment of the path is empty. The new document has just
this list in the place of the old one; it is stored, unless its record is too long or refused by
the store, and then nothing changes. Otherwise the patch is refused at one of its own paths, and
nothing changes. -/
theorem appends_in_one_patch (hready : LawfulStore.Ready c.store) (hschema : c.schema = none)
    {id : String} {record : Bytes}
    (hrecord : (LawfulStore.records c.store).get? id = some record) {d : Document}
    (hd : Document.decode record = .ok d) {path : String} {xs vs : List Value}
    (hlist : d.get? path = some (.array xs)) (hvs : vs ≠ []) (hvalues : ∀ v ∈ vs, v.WellFormed)
    (now : Int64) :
    let run := update now id (.patch (Update.appending path xs.length vs) []) c
    let accepted := "" ∉ Path.segments path ∧ Update.EvenIndices xs.length vs.length
    ∃ appended, d.setPath path (.array (xs ++ vs)) = .ok appended ∧
      let w := { appended with
        id := some id
        createdAt := d.createdAt
        updatedAt := some (if now < d.updatedAt.getD 0 then d.updatedAt.getD 0 else now) }
      w.get? path = some (.array (xs ++ vs)) ∧
      (accepted → match encode c.maxDocumentSize w with
        | .ok r =>
          (∃ t, run = (.ok w, t) ∧
            Became c t ((LawfulStore.records c.store).insert id r)
              (mapValues (·.add id w) c.indexes) ∧
            (get? id t).1 = if w.nesting ≤ Json.depthLimit then .ok (some w)
              else .error (.corrupt id .invalidJson)) ∨
          ∃ e t, run = (.error (.store e), t) ∧
            Became c t (LawfulStore.records c.store) c.indexes
        | .error e => ∃ t, run = (.error e, t) ∧
            Became c t (LawfulStore.records c.store) c.indexes) ∧
      (¬ accepted → ∃ i reason t, xs.length ≤ i ∧ i < xs.length + vs.length ∧
        run = (.error (.validation (.constraint (Path.element path i) reason)), t) ∧
          Became c t (LawfulStore.records c.store) c.indexes) := by
  intro run accepted
  have hwd := Document.wellFormed_of_decode hd
  have hreserved := hwd.isReserved_of_get? hlist
  obtain ⟨appended, hset, hget, hwrite, hrefused⟩ := Update.writeAll_appending hlist hvs
  refine ⟨appended, hset, ?_⟩
  intro w
  refine ⟨hget, fun haccepted => ?_, fun hnot => ?_⟩
  · obtain ⟨hfull, heven⟩ := haccepted
    have hcheck := Update.check_appending hreserved hfull xs.length vs
    have hvalues : (Update.patch (Update.appending path xs.length vs) []).WellFormed :=
      Update.wellFormed_appending hvalues path xs.length
    have happly : (Update.patch (Update.appending path xs.length vs) []).apply d = .ok appended := by
      rw [Update.apply, hwrite heven]
      rfl
    exact update_of_apply hready hschema hrecord hd hvalues hcheck happly now
  · refine update_of_refused hready hrecord hd hreserved hvs (fun hfull => ?_) now
    exact hrefused fun heven => hnot ⟨hfull, heven⟩

/-- Two values get behind eight in one patch, but not behind nine. -/
theorem appends_in_one_patch_up_to_nine :
    let d (n : Nat) : Document :=
      { id := some "x", fields := [("a", .array (List.replicate n .null))] }
    let c (n : Nat) : Collection MemoryStore :=
      { name := "c", store := { records := [("x", (d n).encode)] } }
    let patch (n : Nat) : Update := .patch (Update.appending "a" n [.null, .null]) []
    (∃ w t, update 0 "x" (patch 8) (c 8) = (.ok w, t) ∧
      w.get? "a" = some (.array (List.replicate 10 .null))) ∧
    ∃ e t, update 0 "x" (patch 9) (c 9) = (.error e, t) := by
  intro d c patch
  have hready (n : Nat) : LawfulStore.Ready (c n).store := ⟨rfl, List.pairwise_singleton _ _⟩
  have hrecord (n : Nat) : (LawfulStore.records (c n).store).get? "x" = some (d n).encode := rfl
  have hlist (n : Nat) : (d n).get? "a" = some (.array (List.replicate n .null)) := rfl
  have hnull : ∀ v ∈ [Value.null, .null], v.WellFormed := by simp [Value.WellFormed]
  have hwd (n : Nat) : (d n).WellFormed := by
    refine ⟨List.pairwise_singleton _ _, ⟨Value.wellFormedItems_iff.mpr ?_, trivial⟩, ?_⟩
    · intro v hv
      rw [List.eq_of_mem_replicate hv]
      trivial
    · simp [d, Document.isReserved]
  have hd (n : Nat) (hfinite : (d n).nonFinitePath = none) (hdepth : (d n).nesting ≤ 127) :
      Document.decode (d n).encode = .ok (d n) :=
    (Document.decode_encode (hwd n) hfinite).trans (if_pos hdepth)
  constructor
  · obtain ⟨appended, -, hget, haccepted, -⟩ := appends_in_one_patch (hready 8) rfl (hrecord 8)
      (hd 8 rfl (by decide)) (hlist 8) (List.cons_ne_nil _ _) hnull 0
    have hok : (update 0 "x" (patch 8) (c 8)).1.toOption.isSome = true := by decide +kernel
    have herror {e : CollectionError} {t : Collection MemoryStore}
        (h : update 0 "x" (patch 8) (c 8) = (.error e, t)) :
        ¬ (update 0 "x" (patch 8) (c 8)).1.toOption.isSome = true := by
      rw [h]
      exact Bool.false_ne_true
    have hrun := haccepted ⟨by decide, by decide, by decide⟩
    split at hrun
    next r _ =>
      rcases hrun with ⟨t, hrun, -⟩ | ⟨e, t, hrun, -⟩
      · exact ⟨_, t, hrun, hget⟩
      · exact absurd hok (herror hrun)
    next e _ =>
      obtain ⟨t, hrun, -⟩ := hrun
      exact absurd hok (herror hrun)
  · obtain ⟨appended, -, -, -, hrefused⟩ := appends_in_one_patch (hready 9) rfl (hrecord 9)
      (hd 9 rfl (by decide)) (hlist 9) (List.cons_ne_nil _ _) hnull 0
    obtain ⟨i, reason, t, -, -, hrun, -⟩ := hrefused fun h => absurd h.2.1 (by decide)
    exact ⟨_, t, hrun⟩

end Collection
end DocBase
