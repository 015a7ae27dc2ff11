import DocBase.Proofs.Document.Below
import DocBase.Proofs.Value.ElementPath

/-! Writes to the elements of a list. The list takes an index up to its length, so that values
get behind it one after another only in the order of their indices; a patch has them in the
order of their paths. -/
namespace DocBase
open Keyed

/-- The writes that put values behind a list of so many elements. -/
def Update.appending (path : String) (n : Nat) (vs : List Value) : Fields :=
  Keyed.ofList ((vs.zipIdx n).map fun e => (Path.element path e.2, e.1))

namespace Value
variable {ys : List Value} {i : Nat}

/-- A list with this element, which may be a new one. -/
def setElement (ys : List Value) (i : Nat) (v : Value) : List Value :=
  if i = ys.length then ys ++ [v] else ys.set i v

theorem write_element (path : String) (v : Value) (i : Nat) (seen : List String)
    (ys : List Value) : write path v [toString i] seen (array ys) =
      if i < UInt64.size ∧ i ≤ ys.length then (.ok (), array (setElement ys i v))
      else (.error (.invalidIndex path (Path.join seen)), array ys) := by
  have hindex := Path.arrayIndex_toString i
  split
  next h =>
    rw [if_pos h.1] at hindex
    have hstep : (array ys).step? (toString i) = some (.element i) := by rw [step?, hindex]; rfl
    rw [write_of_takes hstep (.element h.2)]
    rfl
  next h =>
    refine write_of_refuses (.noSlot fun j hj => ?_)
    rw [hindex] at hj
    split at hj
    next hlt =>
      cases hj
      omega
    next => cases hj

end Value

namespace Document
open Value
variable {d : Document} {path : String} {place : Place} {xs ys vs : List Value}

/-- The document with another value at a place of its fields. -/
def putAt (d : Document) (place : Place) (new : Value) : Document :=
  d.withFields ((Value.object d.fields).putAt place new)

section List
variable (hplace : (Value.object d.fields).place? (Path.segments path) = some place)
  (hlist : (Value.object d.fields).valueAt? place = some (array xs))
include hlist

theorem object_putAt (new : Value) :
    Value.object (d.putAt place new).fields = (Value.object d.fields).putAt place new := by
  obtain ⟨fields, hfields⟩ := exists_fields_putAt hlist (by simp) new
  rw [putAt, hfields]
  rfl

theorem withFields_putAt (a b : Value) : (d.putAt place a).withFields
    ((Value.object d.fields).putAt place b) = d.putAt place b := by
  obtain ⟨fields, hfields⟩ := exists_fields_putAt hlist (by simp) a
  obtain ⟨fields', hfields'⟩ := exists_fields_putAt hlist (by simp) b
  rw [putAt, putAt, hfields, hfields']
  rfl

theorem putAt_list : d.putAt place (array xs) = d := by
  rw [putAt, putAt_self hlist]
  rfl

include hplace

theorem setPath_putAt (a b : Value) : (d.putAt place a).setPath path b = .ok (d.putAt place b) := by
  have hwrite := write_putAt hplace path b [] [] a
  rw [List.append_nil] at hwrite
  rw [setPath, writePath, object_putAt hlist, hwrite]
  exact congrArg Except.ok (withFields_putAt hlist a b)

theorem setPath_element (v : Value) (i : Nat) (ys : List Value) :
    (d.putAt place (array ys)).setPath (Path.element path i) v =
      if i < UInt64.size ∧ i ≤ ys.length then .ok (d.putAt place (array (setElement ys i v)))
      else .error (.invalidIndex (Path.element path i) path) := by
  have hwrite := write_putAt hplace (Path.element path i) v [toString i] [] (array ys)
  rw [write_element, List.nil_append, Path.join_segments] at hwrite
  rw [setPath, writePath, Path.segments_element, object_putAt hlist, hwrite]
  by_cases h : i < UInt64.size ∧ i ≤ ys.length
  · rw [if_pos h, if_pos h]
    exact congrArg Except.ok (withFields_putAt hlist _ _)
  · rw [if_neg h, if_neg h]

end List
end Document

namespace Update
open Value Document
variable {d : Document} {path : String} {place : Place} {xs ys vs : List Value}
  {writes : List (String × Value)} {m n : Nat}

/-- A patch is refused at one of the indices that it writes to. -/
def RefusedAt (path : String) (writes : List (String × Value)) (d : Document) : Prop :=
  ∃ i, Path.element path i ∈ Keyed.keys writes ∧
    writeAll writes d = .error (.constraint (Path.element path i)
      (.conflict (.invalidIndex (Path.element path i) path)))

section Run
variable (hplace : (Value.object d.fields).place? (Path.segments path) = some place)
  (hlist : (Value.object d.fields).valueAt? place = some (array xs))
include hplace hlist

theorem writeAll_element (v : Value) (i : Nat) (rest : List (String × Value)) (ys : List Value) :
    writeAll ((Path.element path i, v) :: rest) (d.putAt place (array ys)) =
      if i < UInt64.size ∧ i ≤ ys.length then
        writeAll rest (d.putAt place (array (setElement ys i v)))
      else .error (.constraint (Path.element path i)
        (.conflict (.invalidIndex (Path.element path i) path))) := by
  rw [writeAll, setPath_element hplace hlist]
  by_cases h : i < UInt64.size ∧ i ≤ ys.length
  · rw [if_pos h, if_pos h]
  · rw [if_neg h, if_neg h]

/-- In the order of their indices values get behind the list one after another. -/
theorem writeAll_zipIdx (vs ys : List Value) (hsize : ys.length + vs.length ≤ UInt64.size) :
    writeAll ((vs.zipIdx ys.length).map fun e => (Path.element path e.2, e.1))
      (d.putAt place (array ys)) = .ok (d.putAt place (array (ys ++ vs))) := by
  induction vs generalizing ys with
  | nil => rw [List.append_nil]; rfl
  | cons v vs ih =>
    have hlength : ys.length + 1 = (ys ++ [v]).length := by simp
    rw [List.length_cons] at hsize
    rw [List.zipIdx_cons, List.map_cons, writeAll_element hplace hlist, if_pos (by omega),
      setElement, if_pos rfl, hlength, ih (ys ++ [v]) (by simp; omega), List.append_assoc]
    rfl

theorem refusedAt_cons {v : Value} {i : Nat} {rest : List (String × Value)} {ys : List Value}
    (h : i < UInt64.size → i ≤ ys.length →
      RefusedAt path rest (d.putAt place (array (setElement ys i v)))) :
    RefusedAt path ((Path.element path i, v) :: rest) (d.putAt place (array ys)) := by
  by_cases hi : i < UInt64.size ∧ i ≤ ys.length
  · obtain ⟨j, hj, hrefused⟩ := h hi.1 hi.2
    exact ⟨j, List.mem_cons_of_mem _ hj, by
      rw [writeAll_element hplace hlist, if_pos hi, hrefused]⟩
  · exact ⟨i, List.mem_cons_self, by rw [writeAll_element hplace hlist, if_neg hi]⟩

theorem refusedAt_of_large (helements : ∀ e ∈ writes, ∃ i, e.1 = Path.element path i)
    (hm : Path.element path m ∈ Keyed.keys writes) (hlarge : UInt64.size ≤ m) (ys : List Value) :
    RefusedAt path writes (d.putAt place (array ys)) := by
  induction writes generalizing ys with
  | nil => exact absurd hm List.not_mem_nil
  | cons e rest ih =>
    obtain ⟨key, v⟩ := e
    obtain ⟨i, rfl⟩ := helements (key, v) List.mem_cons_self
    refine refusedAt_cons hplace hlist fun hi _ => ?_
    refine ih (fun e he => helements e (List.mem_cons_of_mem _ he)) ?_ _
    refine (List.mem_cons.mp hm).resolve_left fun h => ?_
    have hmi := Path.element_injective h
    omega

/-- Where the path of an index comes before that of the index in front of it, the list is not
yet long enough when its turn comes. -/
theorem refusedAt_of_gap (hwrites : Ascending writes)
    (helements : ∀ e ∈ writes, ∃ i, e.1 = Path.element path i)
    (hm : Path.element path (m + 1) ∈ Keyed.keys writes)
    (hback : compare (Path.element path (m + 1)) (Path.element path m) = .lt)
    {ys : List Value} (hys : ys.length ≤ m) :
    RefusedAt path writes (d.putAt place (array ys)) := by
  induction writes generalizing ys with
  | nil => exact absurd hm List.not_mem_nil
  | cons e rest ih =>
    obtain ⟨key, v⟩ := e
    obtain ⟨i, rfl⟩ := helements (key, v) List.mem_cons_self
    obtain ⟨hfirst, hrest⟩ := ascending_cons.mp hwrites
    refine refusedAt_cons hplace hlist fun _ hi => ?_
    have hm' : Path.element path (m + 1) ∈ Keyed.keys rest := by
      refine (List.mem_cons.mp hm).resolve_left fun h => ?_
      have hmi := Path.element_injective h
      omega
    have hne : i ≠ m := by
      rintro rfl
      obtain ⟨w, hw⟩ := mem_keys.mp hm'
      exact Std.OrientedCmp.not_lt_of_lt hback (hfirst _ hw)
    refine ih hrest (fun e he => helements e (List.mem_cons_of_mem _ he)) hm' ?_
    rw [setElement]
    split
    next h => rw [List.length_append, List.length_singleton]; omega
    next => rwa [List.length_set]

end Run

/-! ## Values behind a list -/

theorem mem_keys_appending {key : String} : key ∈ Keyed.keys (appending path n vs) ↔
    ∃ i, n ≤ i ∧ i < n + vs.length ∧ key = Path.element path i := by
  have hkeys : ((vs.zipIdx n).map fun e => (Path.element path e.2, e.1)).map Prod.fst =
      (List.range' n vs.length).map (Path.element path) := by
    rw [← List.zipIdx_map_snd, List.map_map, List.map_map]
    rfl
  rw [appending, mem_keys_ofList, hkeys, List.mem_map]
  simp only [List.mem_range'_1, eq_comm, and_assoc]

theorem appending_of_length_eq
    (h : (Nat.toDigits 10 n).length = (Nat.toDigits 10 (n + vs.length - 1)).length) :
    appending path n vs = (vs.zipIdx n).map fun e => (Path.element path e.2, e.1) := by
  refine ofList_of_ascending (List.pairwise_map.mpr ?_)
  have hordered : (vs.zipIdx n).Pairwise fun a b => a.2 < b.2 := by
    rw [← List.pairwise_map, List.zipIdx_map_snd]
    exact List.pairwise_lt_range'
  have hlength : ∀ e ∈ vs.zipIdx n,
      (Nat.toDigits 10 e.2).length = (Nat.toDigits 10 n).length := fun e he => by
    have hfrom := Json.length_toDigits_mono (List.le_snd_of_mem_zipIdx he)
    have hto : e.2 ≤ n + vs.length - 1 := by
      have := List.snd_lt_of_mem_zipIdx he
      omega
    exact le_antisymm (h ▸ Json.length_toDigits_mono hto) hfrom
  refine hordered.imp_of_mem fun ha hb hlt => ?_
  rw [Path.compare_element, Json.toDigits_lt_iff ((hlength _ ha).trans (hlength _ hb).symm)]
  exact hlt

theorem wellFormed_appending (h : ∀ v ∈ vs, v.WellFormed) (path : String) (n : Nat) :
    WellFormedFields (appending path n vs) := by
  refine wellFormedFields_iff.mpr (forall_mem_foldl_insert (by simp) fun e he => ?_)
  obtain ⟨x, hx, rfl⟩ := List.mem_map.mp he
  exact h x.1 (List.fst_mem_of_mem_zipIdx hx)

/-- The indices of so many elements from this one on are all written with equally many digits. -/
def EvenIndices (n k : Nat) : Prop :=
  (toString n).length = (toString (n + k - 1)).length ∧ n + k ≤ UInt64.size

/-- Values go behind a list in one patch where their indices have equally many digits, and else
the patch is refused at one of them. -/
theorem writeAll_appending (hget : d.get? path = some (array xs)) (hvs : vs ≠ []) :
    ∃ appended, d.setPath path (array (xs ++ vs)) = .ok appended ∧
      appended.get? path = some (array (xs ++ vs)) ∧
      (EvenIndices xs.length vs.length →
        writeAll (appending path xs.length vs) d = .ok appended) ∧
      (¬ EvenIndices xs.length vs.length → RefusedAt path (appending path xs.length vs) d) := by
  rw [Document.get?, Value.get?, at?_eq_valueAt?] at hget
  obtain ⟨place, hplace, hlist⟩ := Option.bind_eq_some_iff.mp hget
  have hset := setPath_putAt hplace hlist (array xs) (array (xs ++ vs))
  rw [putAt_list hlist] at hset
  have hlength (n : Nat) : (toString n).length = (Nat.toDigits 10 n).length := by
    rw [Nat.toString_eq_repr, Nat.repr_eq_ofList_toDigits, String.length_ofList]
  simp only [EvenIndices, hlength]
  refine ⟨_, hset, ?_, fun h => ?_, fun h => ?_⟩
  · have hread := place?_putAt hplace [] (array (xs ++ vs))
    rw [List.append_nil, place?, Option.map_some, List.append_nil] at hread
    rw [Document.get?, Value.get?, at?_eq_valueAt?, object_putAt hlist, hread, Option.bind_some,
      valueAt?_putAt hlist]
  · have hrun := writeAll_zipIdx hplace hlist vs xs h.2
    rwa [putAt_list hlist, ← appending_of_length_eq h.1] at hrun
  · have hpos : 0 < vs.length := List.length_pos_iff.mpr hvs
    have helements : ∀ e ∈ appending path xs.length vs, ∃ i, e.1 = Path.element path i :=
      fun e he => by
        obtain ⟨i, -, -, hi⟩ := mem_keys_appending.mp (mem_keys.mpr ⟨e.2, he⟩)
        exact ⟨i, hi⟩
    rw [← putAt_list hlist]
    by_cases hdigits : (Nat.toDigits 10 xs.length).length =
        (Nat.toDigits 10 (xs.length + vs.length - 1)).length
    · have hlarge : UInt64.size < xs.length + vs.length :=
        Nat.not_le.mp fun hsize => h ⟨hdigits, hsize⟩
      refine refusedAt_of_large (m := xs.length + vs.length - 1) hplace hlist helements
        (mem_keys_appending.mpr ⟨_, by omega, by omega, rfl⟩) (by omega) xs
    · rw [Nat.add_sub_assoc hpos] at hdigits
      obtain ⟨i, hi, hcarry⟩ := Json.exists_carry hdigits
      have hback := (Path.compare_element path _ _).mpr (Json.toDigits_succ_lt hcarry)
      refine refusedAt_of_gap hplace hlist (ascending_ofList _) helements
        (mem_keys_appending.mpr ⟨_, by omega, by omega, rfl⟩) hback (Nat.le_add_right _ _)

end Update
end DocBase
