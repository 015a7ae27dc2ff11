import DocBase.Proofs.Collection.Ledger

/-! Which of the documents that were written can be read back. A write tests how long the
record of its document is and that all numbers are finite, but not how deep its arrays and
objects lie inside one another. A record that is too deep gets into the store, and fails
whoever comes across it from then on. -/
namespace DocBase
open Keyed

variable {σ : Type} [RecordStore σ] [LawfulStore σ]

namespace Ledger.Accounted
variable {l : Ledger σ} {start : Keyed String Bytes}

theorem readable (h : l.Accounted start) (hstart : Readable start start.keys)
    (hshallow : ∀ id w, l.written id = some w → w.nesting ≤ Json.depthLimit) :
    Readable (LawfulStore.records l.collection.store)
      (LawfulStore.records l.collection.store).keys := by
  intro id _ record hrecord
  cases hwritten : l.written id with
  | none =>
    exact hstart.decode (h.untouched id record hrecord hwritten)
  | some w =>
    obtain ⟨r, hr, hdecode⟩ := h.decode_written hwritten
    rw [hrecord, Option.some.injEq] at hr
    exact ⟨w, by rw [hr, hdecode, if_pos (hshallow id w hwritten)]⟩

theorem get?_written (h : l.Accounted start) {id : String} {w : Document}
    (hw : l.written id = some w) :
    (Collection.get? id l.collection).1 =
      if w.nesting ≤ Json.depthLimit then .ok (some w)
      else .error (.corrupt id .invalidJson) := by
  obtain ⟨record, hrecord, hdecode⟩ := h.decode_written hw
  obtain ⟨t, hget, -⟩ := Collection.get?_spec h.ready id
  rw [hget, hrecord]
  dsimp only
  rw [Collection.decode, hdecode]
  split <;> rfl

theorem find_all (h : l.Accounted start) (hstart : Readable start start.keys)
    (hshallow : ∀ id w, l.written id = some w → w.nesting ≤ Json.depthLimit) :
    ∃ docs, (Collection.find {} l.collection).1 = .ok docs ∧
      ∀ id w, l.written id = some w → w ∈ docs := by
  have hread := h.readable hstart hshallow
  rcases Collection.find_all_cases h.ready with ⟨-, hfind⟩ | ⟨id, record, e, hrecord, he, -⟩
  · refine ⟨_, hfind, fun id w hw => ?_⟩
    obtain ⟨record, hrecord, hdecode⟩ := h.decode_written hw
    refine List.mem_filterMap.mpr ⟨id, mem_keys_of_get? hrecord, ?_⟩
    rw [documentAt, hrecord, Option.bind_some, hdecode, if_pos (hshallow id w hw)]
    rfl
  · obtain ⟨d, hd⟩ := hread.decode hrecord
    rw [hd] at he
    cases he

theorem find_all_of_deep (h : l.Accounted start) (hstart : Readable start start.keys)
    {id : String} {w : Document} (hw : l.written id = some w)
    (hdeep : Json.depthLimit < w.nesting) :
    ∃ id', (Collection.find {} l.collection).1 =
      .error (.query (.corrupt id' .invalidJson)) := by
  rcases Collection.find_all_cases h.ready with ⟨hread, -⟩ | ⟨id', record, e, hrecord, he, hfind⟩
  · obtain ⟨record, hrecord, hdecode⟩ := h.decode_written hw
    obtain ⟨d, hd⟩ := hread.decode hrecord
    rw [hd, if_neg (Nat.not_le.mpr hdeep)] at hdecode
    cases hdecode
  · refine ⟨id', ?_⟩
    cases hwritten : l.written id' with
    | none =>
      obtain ⟨d, hd⟩ := hstart.decode (h.untouched id' record hrecord hwritten)
      rw [hd] at he
      cases he
    | some x =>
      obtain ⟨r, hr, hdecode⟩ := h.decode_written hwritten
      rw [hrecord, Option.some.injEq] at hr
      rw [← hr, he] at hdecode
      split at hdecode
      · cases hdecode
      · cases hdecode
        exact hfind

end Ledger.Accounted

namespace Collection

/-- What reads make of a document that a write accepted. It comes back where its arrays and
objects do not lie too deep inside one another, and else its record is corrupt. All
documents are found where none that was written is too deep, and else none. -/
theorem reads_after_write {start : Collection σ} (hready : LawfulStore.Ready start.store)
    (hschema : start.schema = none)
    (hstart : Readable (LawfulStore.records start.store)
      (LawfulStore.records start.store).keys)
    {changes : List Change} (hchanges : ∀ change ∈ changes, change.WellFormed) {write : Write}
    (hwrite : write.WellFormed) {d : Document} {c : Collection σ}
    (hrun : write.run (Ledger.applyAll changes { collection := start }).collection =
      (.ok d, c)) :
    let written :=
      ((Ledger.applyAll changes { collection := start }).apply (.write write)).written
    (∃ id, d.id = some id ∧ (get? id c).1 =
      if d.nesting ≤ Json.depthLimit then .ok (some d) else .error (.corrupt id .invalidJson)) ∧
    ((∀ id w, written id = some w → w.nesting ≤ Json.depthLimit) →
      ∃ docs, (find {} c).1 = .ok docs ∧ d ∈ docs) ∧
    ∀ id w, written id = some w → Json.depthLimit < w.nesting →
      ∃ id', (find {} c).1 = .error (.query (.corrupt id' .invalidJson)) := by
  have hbefore := Ledger.accounted_of_changes hready hschema hchanges
  have hafter := hbefore.write hwrite
  obtain ⟨id, hid⟩ : ∃ id, d.id = some id := by
    rcases write_cases hbefore.ready write with ⟨e, t, hfailed, -⟩ | ⟨id, w, record, t, hok, hid, -⟩
    · rw [hrun] at hfailed
      cases hfailed
    · rw [hrun] at hok
      cases hok
      exact ⟨id, hid⟩
  rw [Ledger.apply_write hrun] at hafter ⊢
  refine ⟨⟨id, hid, hafter.get?_written (if_pos hid)⟩, fun hshallow => ?_, fun i w hw hdeep => ?_⟩
  · obtain ⟨docs, hfind, hdocs⟩ := hafter.find_all hstart hshallow
    exact ⟨docs, hfind, hdocs id d (if_pos hid)⟩
  · exact hafter.find_all_of_deep hstart hw hdeep

/-- A value of a given depth. -/
def nestedArrays : Nat → Value
  | 0 => .null
  | n + 1 => .array [nestedArrays n]

theorem wellFormed_nestedArrays : ∀ n, (nestedArrays n).WellFormed
  | 0 => trivial
  | n + 1 => ⟨wellFormed_nestedArrays n, trivial⟩

/-- A patch that is accepted, and puts a value that could be read one level too deep. -/
theorem reads_after_deep_patch :
    let start : Collection MemoryStore := { name := "a", store := {} }
    let insertion : Change := .write (.insert { now := 0, freshId := "p" } {})
    let patch : Write := .update 1 "p" (.patch [("a.b", nestedArrays (Json.depthLimit - 1))] [])
    ∃ d c, patch.run (Ledger.applyAll [insertion] { collection := start }).collection =
        (.ok d, c) ∧ (get? "p" c).1 = .error (.corrupt "p" .invalidJson) ∧
      ∃ id, (find {} c).1 = .error (.query (.corrupt id .invalidJson)) := by
  intro start insertion patch
  have hready : LawfulStore.Ready start.store := ⟨rfl, ascending_nil⟩
  have hchanges : ∀ change ∈ [insertion], change.WellFormed := by
    rintro change hchange
    rw [List.mem_singleton.mp hchange]
    exact ⟨ascending_nil, trivial⟩
  have hpatch : patch.WellFormed := ⟨wellFormed_nestedArrays _, trivial⟩
  have haccepted : (patch.run (Ledger.applyAll [insertion]
      { collection := start }).collection).1.toOption.map (fun d => (d.id, d.nesting)) =
      some (some "p", Json.depthLimit + 1) := by decide +kernel
  obtain ⟨d, hd, hwritten⟩ := exists_of_toOption_map haccepted
  obtain ⟨hid, hnesting⟩ := Prod.mk.inj hwritten
  cases hrun : patch.run (Ledger.applyAll [insertion] { collection := start }).collection with
  | mk r c =>
    obtain rfl : r = .ok d := by rw [hrun] at hd; exact hd
    obtain ⟨⟨id, hid', hget⟩, -, hfind⟩ := reads_after_write hready rfl
      (fun id hid => absurd hid List.not_mem_nil) hchanges hpatch hrun
    have hdeep : Json.depthLimit < d.nesting := by rw [hnesting]; exact Nat.lt_succ_self _
    rw [hid, Option.some.injEq] at hid'
    rw [if_neg (Nat.not_le.mpr hdeep), ← hid'] at hget
    refine ⟨d, c, rfl, hget, hfind "p" d ?_ hdeep⟩
    rw [Ledger.apply_write hrun]
    exact if_pos hid

end Collection
end DocBase
