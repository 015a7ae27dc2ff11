import DocBase.Proofs.Action
import DocBase.Proofs.Document.Codec
import DocBase.Proofs.Text.Split
import DocBase.Collection.Update

/-! Edits of well-formed documents leave well-formed documents. -/
namespace DocBase
open Keyed

/-! ## Paths -/

theorem exists_segments (path : String) : ∃ s rest, Path.segments path = s :: rest := by
  obtain ⟨s, rest, hsplit, -⟩ := Text.head_split '.' path.toList
  exact ⟨String.ofList s, rest.map String.ofList, by rw [Path.segments, hsplit]; rfl⟩

/-- A path is reserved as the name that it begins with. -/
theorem exists_first_segment (path : String) : ∃ s rest, Path.segments path = s :: rest ∧
    Document.isReserved s = Document.isReserved path := by
  obtain ⟨s, rest, hsplit, hs⟩ := Text.head_split '.' path.toList
  refine ⟨String.ofList s, rest.map String.ofList, by rw [Path.segments, hsplit]; rfl, ?_⟩
  rw [Document.isReserved, Document.isReserved, String.toList_ofList]
  rcases hs with hs | ⟨rfl, hpath⟩
  · rw [hs]
  · rw [hpath]
    rfl

namespace Value

theorem WellFormed.get? {fs : List (String × Value)} (h : WellFormedFields fs) {s : String}
    {v : Value} (hv : Keyed.get? s fs = some v) : v.WellFormed :=
  wellFormedFields_iff.mp h (s, v) (mem_of_get? hv)

theorem wellFormed_insert {fs : Fields} (h : (object fs).WellFormed) {v : Value}
    (hv : v.WellFormed) (s : String) : (object (Keyed.insert s v fs)).WellFormed := by
  refine ⟨h.1.insert s v, wellFormedFields_iff.mpr fun e he => ?_⟩
  rcases mem_insert he with ⟨-, heq⟩ | he
  · rw [heq]; exact hv
  · exact wellFormedFields_iff.mp h.2 e he

theorem wellFormed_erase {fs : Fields} (h : (object fs).WellFormed) (s : String) :
    (object (Keyed.erase s fs)).WellFormed :=
  ⟨h.1.erase s, wellFormedFields_iff.mpr fun e he =>
    wellFormedFields_iff.mp h.2 e ((erase_sublist s fs).subset he)⟩

theorem wellFormed_items_set {xs : List Value} (h : WellFormedItems xs) {v : Value}
    (hv : v.WellFormed) (i : Nat) : WellFormedItems (xs.set i v) := by
  refine wellFormedItems_iff.mpr fun x hx => ?_
  rcases List.mem_or_eq_of_mem_set hx with hx | rfl
  · exact wellFormedItems_iff.mp h x hx
  · exact hv

theorem wellFormed_empty : (object []).WellFormed := ⟨ascending_nil, trivial⟩

/-- Also a write that is refused on the way leaves a well-formed value. -/
theorem wellFormed_write {path : String} {new : Value} (hnew : new.WellFormed) :
    ∀ {segments seen : List String} {v : Value}, v.WellFormed →
      (write path new segments seen v).2.WellFormed := by
  intro segments
  induction segments with
  | nil => exact fun _ => hnew
  | cons s rest ih =>
    intro seen v hv
    cases v with
    | object fs =>
      have hold : ((Keyed.get? s fs).getD (object [])).WellFormed := by
        cases hget : Keyed.get? s fs with
        | none => exact wellFormed_empty
        | some old => exact WellFormed.get? hv.2 hget
      exact wellFormed_insert hv (ih hold) s
    | array xs =>
      rw [write]
      split
      next => exact hv
      next i _ =>
        extract_lets slots
        have hslots : WellFormedItems slots := by
          refine wellFormedItems_iff.mpr fun x hx => ?_
          by_cases hi : i = xs.length
          · rw [show slots = xs ++ [object []] from if_pos hi, List.mem_append,
              List.mem_singleton] at hx
            rcases hx with hx | rfl
            · exact wellFormedItems_iff.mp hv x hx
            · exact wellFormed_empty
          · rw [show slots = xs from if_neg hi] at hx
            exact wellFormedItems_iff.mp hv x hx
        have hold : (slots[i]?.getD (object [])).WellFormed := by
          cases hget : slots[i]? with
          | none => exact wellFormed_empty
          | some old => exact wellFormedItems_iff.mp hslots old (List.mem_of_getElem? hget)
        exact wellFormed_items_set hslots (ih hold) i
    | _ => exact hv

theorem wellFormed_items_eraseIdx {xs : List Value} (h : WellFormedItems xs) (i : Nat) :
    WellFormedItems (xs.eraseIdx i) :=
  wellFormedItems_iff.mpr fun x hx =>
    wellFormedItems_iff.mp h x ((List.eraseIdx_sublist xs i).subset hx)

theorem mem_of_element? {s : String} {xs : List Value} {i : Nat} {v : Value}
    (h : element? s xs = some (i, v)) : Path.arrayIndex s = some i ∧ xs[i]? = some v := by
  obtain ⟨j, hj, h⟩ := Option.bind_eq_some_iff.mp h
  obtain ⟨w, hw, h⟩ := Option.bind_eq_some_iff.mp h
  cases h
  exact ⟨hj, hw⟩

theorem wellFormed_cut (leaf : String) : ∀ {parents : List String} {v : Value}, v.WellFormed →
    (cut leaf parents v).2.WellFormed := by
  intro parents
  induction parents with
  | nil =>
    intro v hv
    cases v with
    | object fs => exact wellFormed_erase hv leaf
    | array xs =>
      rw [cut]
      split
      · exact wellFormed_items_eraseIdx hv _
      · exact hv
    | _ => exact hv
  | cons s parents ih =>
    intro v hv
    cases v with
    | object fs =>
      rw [cut]
      split
      next old hold => exact wellFormed_insert hv (ih (WellFormed.get? hv.2 hold)) s
      next => exact hv
    | array xs =>
      rw [cut]
      split
      next i old hold =>
        have hmem : old ∈ xs := List.mem_of_getElem? (mem_of_element? hold).2
        exact wellFormed_items_set hv (ih (wellFormedItems_iff.mp hv old hmem)) i
      next => exact hv
    | _ => exact hv

/-- What is written into an object goes under the first segment. -/
theorem names_write (path : String) (new : Value) (s : String) (rest seen : List String)
    (fs : Fields) : ∃ fs', (write path new (s :: rest) seen (object fs)).2 = object fs' ∧
      ∀ e ∈ fs', e.1 = s ∨ ∃ v, (e.1, v) ∈ fs := by
  refine ⟨_, rfl, fun e he => ?_⟩
  rcases mem_insert he with ⟨hname, -⟩ | he
  · exact Or.inl (Std.LawfulEqOrd.eq_of_compare hname).symm
  · exact Or.inr ⟨e.2, he⟩

theorem names_cut (leaf : String) (parents : List String) (fs : Fields) :
    ∃ fs', (cut leaf parents (object fs)).2 = object fs' ∧ ∀ e ∈ fs', ∃ v, (e.1, v) ∈ fs := by
  cases parents with
  | nil => exact ⟨_, rfl, fun e he => ⟨e.2, (erase_sublist leaf fs).subset he⟩⟩
  | cons s parents =>
    rw [cut]
    split
    next old hold =>
      refine ⟨_, rfl, fun e he => ?_⟩
      rcases mem_insert he with ⟨hname, -⟩ | he
      · rw [← Std.LawfulEqOrd.eq_of_compare hname]
        exact ⟨old, mem_of_get? hold⟩
      · exact ⟨e.2, he⟩
    next => exact ⟨fs, rfl, fun e he => ⟨e.2, he⟩⟩

end Value

/-! ## Documents -/
namespace Document
variable {d : Document}

theorem WellFormed.object (h : d.WellFormed) : (Value.object d.fields).WellFormed :=
  ⟨h.ascending, h.values⟩

theorem writePath_of_setPath {path : String} {v : Value} {w : Document}
    (h : d.setPath path v = .ok w) : d.writePath path v = (.ok (), w) := by
  rw [setPath] at h
  split at h
  next hwrite => cases h; exact hwrite
  next => cases h

theorem WellFormed.writePath (h : d.WellFormed) {path : String} {v : Value} (hv : v.WellFormed)
    (hpath : isReserved path = false) : (d.writePath path v).2.WellFormed := by
  obtain ⟨s, rest, hsegments, hs⟩ := exists_first_segment path
  rw [hpath] at hs
  have ho : (Value.write path v (s :: rest) [] (.object d.fields)).2.WellFormed :=
    Value.wellFormed_write hv h.object
  obtain ⟨fs, hfs, hnames⟩ := Value.names_write path v s rest [] d.fields
  rw [Document.writePath, hsegments]
  dsimp only
  rw [hfs] at ho ⊢
  refine ⟨ho.1, ho.2, fun e he => ?_⟩
  rcases hnames e he with hname | ⟨x, hx⟩
  · rw [hname]; exact hs
  · exact h.unreserved (e.1, x) hx

theorem WellFormed.cutPath (h : d.WellFormed) (path : String) : (d.cutPath path).2.WellFormed := by
  rw [Document.cutPath]
  dsimp only
  split
  next leaf _ =>
    have ho : (Value.cut leaf (Path.segments path).dropLast (.object d.fields)).2.WellFormed :=
      Value.wellFormed_cut leaf h.object
    obtain ⟨fs, hfs, hnames⟩ := Value.names_cut leaf (Path.segments path).dropLast d.fields
    rw [hfs] at ho ⊢
    refine ⟨ho.1, ho.2, fun e he => ?_⟩
    obtain ⟨x, hx⟩ := hnames e he
    exact h.unreserved (e.1, x) hx
  next => exact h

/-- Fields that ascend at every level, whatever their names are. -/
theorem wellFormed_stripReserved (h : (Value.object d.fields).WellFormed) :
    d.stripReserved.WellFormed := by
  refine ⟨h.1.sublist List.filter_sublist, Value.wellFormedFields_iff.mpr fun e he => ?_,
    fun e he => ?_⟩
  · exact Value.wellFormedFields_iff.mp h.2 e (List.mem_of_mem_filter he)
  · simpa using (List.mem_filter.mp he).2

end Document

/-! ## Updates -/
namespace Update

/-- The values of an update are well-formed. -/
def WellFormed : Update → Prop
  | replace fields => (Value.object fields).WellFormed
  | patch writes _ => Value.WellFormedFields writes

theorem isReserved_of_checkPath {path : String} (h : checkPath path = .ok ()) :
    Document.isReserved path = false := by
  rw [checkPath] at h
  split at h
  · cases h
  · split at h
    · cases h
    next hreserved => simpa using hreserved

theorem wellFormed_writeAll {writes : List (String × Value)} {d w : Document}
    (hd : d.WellFormed) (hwrites : Value.WellFormedFields writes)
    (hpaths : ∀ e ∈ writes, Document.isReserved e.1 = false) (h : writeAll writes d = .ok w) :
    w.WellFormed := by
  induction writes generalizing d with
  | nil => cases h; exact hd
  | cons e rest ih =>
    obtain ⟨path, v⟩ := e
    rw [writeAll] at h
    split at h
    next d' hset =>
      have hd' := hd.writePath hwrites.1 (hpaths (path, v) List.mem_cons_self)
      rw [Document.writePath_of_setPath hset] at hd'
      exact ih hd' hwrites.2 (fun e he => hpaths e (List.mem_cons_of_mem _ he)) h
    next => cases h

theorem wellFormed_removeAll {d : Document} (h : d.WellFormed) (paths : List String) :
    (removeAll paths d).WellFormed := by
  rw [removeAll]
  induction paths generalizing d with
  | nil => exact h
  | cons path rest ih => exact ih (h.cutPath path)

/-- An update that was checked leaves a well-formed document. -/
theorem wellFormed_apply {u : Update} {d w : Document} (hu : u.WellFormed) (hd : d.WellFormed)
    (hcheck : u.check = .ok ()) (h : u.apply d = .ok w) : w.WellFormed := by
  cases u with
  | replace fields =>
    cases h
    exact Document.wellFormed_stripReserved hu
  | patch writes removals =>
    have hpaths : ∀ e ∈ writes, Document.isReserved e.1 = false := fun e he =>
      isReserved_of_checkPath (forM_eq_ok hcheck e.1
        (List.mem_append_left _ (List.mem_map_of_mem he)))
    rw [apply] at h
    cases hwrite : writeAll writes d with
    | error e => rw [hwrite] at h; cases h
    | ok d' =>
      rw [hwrite] at h
      cases h
      exact wellFormed_removeAll (wellFormed_writeAll hd hu hpaths hwrite) removals

end Update
end DocBase
