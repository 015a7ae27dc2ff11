import DocBase.Keyed
import Mathlib

/-! Ascending entries are finite maps: what `insert`, `erase` and `ofList` do to the values
that `get?` finds, to the number of entries and to sums over them. Keys that compare as
equal need not be the same, unless the comparison says so. -/
namespace DocBase.Keyed
open Std

variable {κ α β : Type}

/-! ## Sums, and other values under the same keys -/

/-- The sum of what each value weighs. -/
def weigh (f : α → Nat) (m : Keyed κ α) : Nat := (m.map fun e => f e.2).sum

@[simp] theorem weigh_nil (f : α → Nat) : weigh f ([] : Keyed κ α) = 0 := rfl

@[simp] theorem weigh_cons (f : α → Nat) (e : κ × α) (m : Keyed κ α) :
    weigh f (e :: m) = f e.2 + weigh f m := by simp [weigh]

def mapValues (f : α → β) (m : Keyed κ α) : Keyed κ β := m.map fun e => (e.1, f e.2)

@[simp] theorem mapValues_nil (f : α → β) : mapValues f ([] : Keyed κ α) = [] := rfl

@[simp] theorem mapValues_cons (f : α → β) (e : κ × α) (m : Keyed κ α) :
    mapValues f (e :: m) = (e.1, f e.2) :: mapValues f m := rfl

@[simp] theorem keys_mapValues (f : α → β) (m : Keyed κ α) : (mapValues f m).keys = m.keys := by
  simp [mapValues, keys, Function.comp_def]

@[simp] theorem length_mapValues (f : α → β) (m : Keyed κ α) :
    (mapValues f m).length = m.length := by
  simp [mapValues]

theorem mapValues_congr {f g : α → β} {m : Keyed κ α} (h : ∀ e ∈ m, f e.2 = g e.2) :
    mapValues f m = mapValues g m :=
  List.map_congr_left fun e he => by rw [h e he]

theorem mem_mapValues {f : α → β} {m : Keyed κ α} {e : κ × β} :
    e ∈ mapValues f m ↔ ∃ v, (e.1, v) ∈ m ∧ f v = e.2 := by
  simp only [mapValues, List.mem_map, Prod.exists]
  constructor
  · rintro ⟨k, v, hm, rfl⟩; exact ⟨v, hm, rfl⟩
  · rintro ⟨v, hm, hv⟩; exact ⟨e.1, v, hm, by rw [hv]⟩

theorem mem_keys {k : κ} {m : Keyed κ α} : k ∈ m.keys ↔ ∃ v, (k, v) ∈ m := by
  simp [keys]

variable [Ord κ]

/-- Each key comes before all keys that follow. -/
def Ascending (m : Keyed κ α) : Prop := m.Pairwise fun a b => compare a.1 b.1 = .lt

theorem ascending_nil : Ascending ([] : Keyed κ α) := List.Pairwise.nil

theorem ascending_cons {e : κ × α} {m : Keyed κ α} :
    Ascending (e :: m) ↔ (∀ x ∈ m, compare e.1 x.1 = .lt) ∧ Ascending m := List.pairwise_cons

theorem Ascending.sublist {m n : Keyed κ α} (h : Ascending n) (hs : m.Sublist n) : Ascending m :=
  List.Pairwise.sublist hs h

theorem pairwise_keys {m : Keyed κ α} (h : Ascending m) :
    m.keys.Pairwise fun a b => compare a b = .lt :=
  List.pairwise_map.mpr h

theorem ascending_of_keys {m : Keyed κ α} {n : Keyed κ β} (hk : n.keys = m.keys)
    (h : Ascending m) : Ascending n := by
  have hm : m.keys.Pairwise fun a b => compare a b = .lt := List.pairwise_map.mpr h
  exact List.pairwise_map.mp (hk ▸ hm)

theorem ascending_mapValues {f : α → β} {m : Keyed κ α} :
    Ascending (mapValues f m) ↔ Ascending m := by
  simp [Ascending, mapValues, List.pairwise_map]

theorem get?_eq_none_of_lt {k : κ} {m : Keyed κ α} (h : ∀ e ∈ m, compare k e.1 = .lt) :
    get? k m = none := by
  cases m with
  | nil => rfl
  | cons e m => simp [get?, h e List.mem_cons_self]

theorem get?_mapValues (f : α → β) (k : κ) (m : Keyed κ α) :
    get? k (mapValues f m) = (get? k m).map f := by
  induction m with
  | nil => rfl
  | cons x m ih => cases hc : compare k x.1 <;> simp [get?, hc, ih]

theorem mapValues_insert (f : α → β) (k : κ) (v : α) (m : Keyed κ α) :
    mapValues f (insert k v m) = insert k (f v) (mapValues f m) := by
  induction m with
  | nil => rfl
  | cons x m ih => cases hc : compare k x.1 <;> simp [insert, hc, ih]

theorem mapValues_erase (f : α → β) (k : κ) (m : Keyed κ α) :
    mapValues f (erase k m) = erase k (mapValues f m) := by
  induction m with
  | nil => rfl
  | cons x m ih => cases hc : compare k x.1 <;> simp [erase, hc, ih]

theorem weigh_insert (f : α → Nat) (k : κ) (v : α) (m : Keyed κ α) :
    weigh f (insert k v m) + ((get? k m).map f).getD 0 = weigh f m + f v := by
  induction m with
  | nil => simp [insert, get?]
  | cons x m ih =>
    cases hc : compare k x.1 with
    | lt => simp [insert, get?, hc]; omega
    | eq => simp [insert, get?, hc]; omega
    | gt => simp only [insert, get?, hc, weigh_cons]; omega

theorem length_insert (k : κ) (v : α) (m : Keyed κ α) :
    (insert k v m).length = m.length + if (get? k m).isNone then 1 else 0 := by
  induction m with
  | nil => rfl
  | cons x m ih =>
    cases hc : compare k x.1 with
    | lt => simp [insert, get?, hc]
    | eq => simp [insert, get?, hc]
    | gt => simp only [insert, get?, hc, List.length_cons, ih]; omega

theorem insert_ne_nil (k : κ) (v : α) (m : Keyed κ α) : insert k v m ≠ [] := by
  cases m with
  | nil => exact List.cons_ne_nil _ _
  | cons x m => cases hc : compare k x.1 <;> simp [insert, hc]

theorem erase_sublist (k : κ) (m : Keyed κ α) : (erase k m).Sublist m := by
  induction m with
  | nil => exact List.Sublist.refl _
  | cons x m ih => cases hc : compare k x.1 <;> simp [erase, hc, ih]

theorem Ascending.erase {m : Keyed κ α} (h : Ascending m) (k : κ) : Ascending (erase k m) :=
  h.sublist (erase_sublist k m)

theorem erase_of_get?_none {k : κ} {m : Keyed κ α} (h : get? k m = none) : erase k m = m := by
  induction m with
  | nil => rfl
  | cons x m ih =>
    cases hc : compare k x.1 with
    | lt => simp [erase, hc]
    | eq => simp [get?, hc] at h
    | gt => simp only [get?, hc] at h; simp [erase, hc, ih h]

theorem weigh_erase (f : α → Nat) (k : κ) (m : Keyed κ α) :
    weigh f (erase k m) + ((get? k m).map f).getD 0 = weigh f m := by
  induction m with
  | nil => rfl
  | cons x m ih =>
    cases hc : compare k x.1 with
    | lt => simp [erase, get?, hc]
    | eq => simp [erase, get?, hc]; omega
    | gt => simp only [erase, get?, hc, weigh_cons]; omega

theorem length_erase (k : κ) (m : Keyed κ α) :
    (erase k m).length + (if contains k m then 1 else 0) = m.length := by
  induction m with
  | nil => rfl
  | cons x m ih =>
    unfold contains at ih ⊢
    cases hc : compare k x.1 with
    | lt => simp [erase, get?, hc]
    | eq => simp [erase, get?, hc]
    | gt => simp only [erase, get?, hc, List.length_cons]; omega

theorem weigh_get?_le (f : α → Nat) (k : κ) (m : Keyed κ α) :
    ((get? k m).map f).getD 0 ≤ weigh f m := by
  have := weigh_erase f k m; omega

theorem insert_of_get? {k : κ} {v : α} {m : Keyed κ α} (h : get? k m = some v) :
    insert k v m = m := by
  induction m with
  | nil => cases h
  | cons x m ih =>
    cases hc : compare k x.1 with
    | lt => simp [get?, hc] at h
    | eq =>
      simp only [get?, hc, Option.some.injEq] at h
      simp [insert, hc, ← h]
    | gt =>
      simp only [get?, hc] at h
      simp [insert, hc, ih h]

/-- Also where the keys do not ascend. -/
theorem get?_insert_same [ReflOrd κ] (k : κ) (v : α) (m : Keyed κ α) :
    get? k (insert k v m) = some v := by
  induction m with
  | nil => simp [insert, get?, ReflCmp.compare_self]
  | cons x m ih => cases hc : compare k x.1 <;> simp [insert, get?, hc, ih, ReflCmp.compare_self]

theorem insert_insert [ReflOrd κ] (k : κ) (v w : α) (m : Keyed κ α) :
    insert k w (insert k v m) = insert k w m := by
  induction m with
  | nil => simp [insert, ReflCmp.compare_self]
  | cons x m ih => cases hc : compare k x.1 <;> simp [insert, hc, ih, ReflCmp.compare_self]

theorem insert_of_forall_gt {k : κ} {m : Keyed κ α} (h : ∀ e ∈ m, compare k e.1 = .gt) (v : α) :
    insert k v m = m ++ [(k, v)] := by
  induction m with
  | nil => rfl
  | cons x m ih =>
    simp only [insert, h x List.mem_cons_self, List.cons_append]
    rw [ih fun e he => h e (List.mem_cons_of_mem _ he)]

theorem get?_of_forall_gt {k : κ} {m : Keyed κ α} (h : ∀ e ∈ m, compare k e.1 = .gt) :
    get? k m = none := by
  induction m with
  | nil => rfl
  | cons x m ih =>
    simp only [get?, h x List.mem_cons_self]
    exact ih fun e he => h e (List.mem_cons_of_mem _ he)

/-! ## Looking up -/

/-- Also where the keys do not ascend. -/
theorem mem_of_get? [LawfulEqOrd κ] {m : Keyed κ α} {k : κ} {v : α} (h : get? k m = some v) :
    (k, v) ∈ m := by
  induction m with
  | nil => cases h
  | cons e m ih =>
    cases hc : compare k e.1 with
    | lt => simp only [get?, hc, reduceCtorEq] at h
    | eq =>
      simp only [get?, hc, Option.some.injEq] at h
      rw [LawfulEqOrd.eq_of_compare hc, ← h]
      exact List.mem_cons_self
    | gt =>
      simp only [get?, hc] at h
      exact List.mem_cons_of_mem _ (ih h)

theorem mem_keys_of_get? [LawfulEqOrd κ] {m : Keyed κ α} {k : κ} {v : α}
    (h : get? k m = some v) : k ∈ m.keys :=
  mem_keys.mpr ⟨v, mem_of_get? h⟩

variable [TransOrd κ]

theorem get?_eq_some_iff {k : κ} {v : α} {m : Keyed κ α} (h : Ascending m) :
    get? k m = some v ↔ ∃ k', compare k k' = .eq ∧ (k', v) ∈ m := by
  induction m with
  | nil => simp [get?]
  | cons e m ih =>
    obtain ⟨k', v'⟩ := e
    obtain ⟨hlt, hm⟩ := ascending_cons.mp h
    cases hc : compare k k' with
    | lt =>
      have hall : ∀ x ∈ m, compare k x.1 = .lt := fun x hx => TransCmp.lt_trans hc (hlt x hx)
      simp only [get?, hc, List.mem_cons, reduceCtorEq, false_iff, not_exists, not_and, not_or]
      intro l hl
      refine ⟨fun e => ?_, fun hx => ?_⟩
      · cases e; rw [hc] at hl; cases hl
      · have := hall _ hx; rw [hl] at this; cases this
    | eq =>
      simp only [get?, hc, Option.some.injEq, List.mem_cons, Prod.mk.injEq]
      constructor
      · rintro rfl; exact ⟨k', hc, Or.inl ⟨rfl, rfl⟩⟩
      · rintro ⟨l, hl, ⟨rfl, rfl⟩ | hx⟩
        · rfl
        · have := hlt _ hx
          rw [← TransCmp.congr_left hc, hl] at this; cases this
    | gt =>
      simp only [get?, hc, ih hm, List.mem_cons, Prod.mk.injEq]
      constructor
      · rintro ⟨l, hl, hx⟩; exact ⟨l, hl, Or.inr hx⟩
      · rintro ⟨l, hl, ⟨rfl, rfl⟩ | hx⟩
        · rw [hc] at hl; cases hl
        · exact ⟨l, hl, hx⟩

theorem get?_of_mem {m : Keyed κ α} (h : Ascending m) {e : κ × α} (he : e ∈ m) :
    get? e.1 m = some e.2 :=
  (get?_eq_some_iff h).mpr ⟨e.1, ReflOrd.compare_self, he⟩

theorem mem_iff_get? [LawfulEqOrd κ] {m : Keyed κ α} (h : Ascending m) {k : κ} {v : α} :
    (k, v) ∈ m ↔ get? k m = some v :=
  ⟨fun hm => get?_of_mem h hm, mem_of_get?⟩

theorem nodup_of_ascending {ks : List κ} (h : ks.Pairwise fun a b => compare a b = .lt) :
    ks.Nodup := by
  refine h.imp fun {a b} hab e => ?_
  rw [e, ReflOrd.compare_self] at hab
  cases hab

theorem Ascending.nodup_keys {m : Keyed κ α} (h : Ascending m) : m.keys.Nodup :=
  nodup_of_ascending (pairwise_keys h)

theorem Ascending.nodup {m : Keyed κ α} (h : Ascending m) : m.Nodup := h.nodup_keys.of_map

/-- Two maps with the same values are the same. -/
theorem ext [LawfulEqOrd κ] {m n : Keyed κ α} (hm : Ascending m) (hn : Ascending n)
    (h : ∀ k, get? k m = get? k n) : m = n := by
  have hantisymm : ∀ a b : κ × α, a ∈ m → b ∈ n → compare a.1 b.1 = .lt →
      compare b.1 a.1 = .lt → a = b :=
    fun a b _ _ hab hba => absurd hab (OrientedCmp.not_lt_of_lt hba)
  refine List.Perm.eq_of_pairwise hantisymm hm hn ?_
  rw [List.perm_ext_iff_of_nodup hm.nodup hn.nodup]
  rintro ⟨k, v⟩
  rw [mem_iff_get? hm, mem_iff_get? hn, h]

/-! ## Insertion -/

theorem mem_insert {k : κ} {v : α} {m : Keyed κ α} {e : κ × α} (he : e ∈ insert k v m) :
    compare k e.1 = .eq ∧ e.2 = v ∨ e ∈ m := by
  induction m with
  | nil =>
    simp only [insert, List.mem_singleton] at he
    subst he; exact Or.inl ⟨ReflOrd.compare_self, rfl⟩
  | cons x m ih =>
    cases hc : compare k x.1 with
    | lt =>
      simp only [insert, hc, List.mem_cons] at he
      rcases he with rfl | he
      · exact Or.inl ⟨ReflOrd.compare_self, rfl⟩
      · exact Or.inr (List.mem_cons.mpr he)
    | eq =>
      simp only [insert, hc, List.mem_cons] at he
      rcases he with rfl | he
      · exact Or.inl ⟨hc, rfl⟩
      · exact Or.inr (List.mem_cons_of_mem _ he)
    | gt =>
      simp only [insert, hc, List.mem_cons] at he
      rcases he with rfl | he
      · exact Or.inr List.mem_cons_self
      · exact (ih he).imp id (List.mem_cons_of_mem _)

/-- A value that is related to all others may be put in anywhere. -/
theorem pairwise_insert {R : α → α → Prop} (hsymm : ∀ a b, R a b → R b a) {m : Keyed κ α}
    (h : m.Pairwise fun a b => R a.2 b.2) {k : κ} {v : α} (hv : ∀ e ∈ m, R v e.2) :
    (insert k v m).Pairwise fun a b => R a.2 b.2 := by
  induction m with
  | nil => exact List.pairwise_singleton _ _
  | cons e rest ih =>
    obtain ⟨he, hrest⟩ := List.pairwise_cons.mp h
    have hvrest : ∀ x ∈ rest, R v x.2 := fun x hx => hv x (List.mem_cons_of_mem _ hx)
    unfold insert
    split
    · exact List.pairwise_cons.mpr ⟨hv, h⟩
    · exact List.pairwise_cons.mpr ⟨hvrest, hrest⟩
    · refine List.pairwise_cons.mpr ⟨?_, ih hrest hvrest⟩
      intro x hx
      rcases mem_insert hx with ⟨-, hx⟩ | hx
      · rw [hx]
        exact hsymm _ _ (hv e List.mem_cons_self)
      · exact he x hx

theorem Ascending.insert {m : Keyed κ α} (h : Ascending m) (k : κ) (v : α) :
    Ascending (insert k v m) := by
  induction m with
  | nil => exact List.pairwise_singleton _ _
  | cons x m ih =>
    obtain ⟨hlt, hm⟩ := ascending_cons.mp h
    cases hc : compare k x.1 with
    | lt =>
      simp only [Keyed.insert, hc]
      refine ascending_cons.mpr ⟨fun y hy => ?_, h⟩
      rcases List.mem_cons.mp hy with rfl | hy
      · exact hc
      · exact TransCmp.lt_trans hc (hlt y hy)
    | eq =>
      simp only [Keyed.insert, hc]
      exact ascending_cons.mpr ⟨hlt, hm⟩
    | gt =>
      simp only [Keyed.insert, hc]
      refine ascending_cons.mpr ⟨fun y hy => ?_, ih hm⟩
      rcases mem_insert hy with ⟨he, -⟩ | hy
      · rw [← TransCmp.congr_right he]; exact OrientedCmp.lt_of_gt hc
      · exact hlt y hy

theorem get?_insert {m : Keyed κ α} (h : Ascending m) (k l : κ) (v : α) :
    get? l (insert k v m) = if compare l k = .eq then some v else get? l m := by
  induction m with
  | nil => cases hc : compare l k <;> simp [insert, get?, hc]
  | cons x m ih =>
    obtain ⟨hlt, hm⟩ := ascending_cons.mp h
    cases hc : compare k x.1 with
    | lt =>
      cases hl : compare l k with
      | lt => simp [insert, get?, hc, hl, TransCmp.lt_trans hl hc]
      | eq => simp [insert, get?, hc, hl]
      | gt => simp [insert, get?, hc, hl]
    | eq =>
      rw [TransCmp.congr_right hc]
      cases hl : compare l x.1 <;> simp [insert, get?, hc, hl]
    | gt =>
      cases hl : compare l x.1 with
      | lt =>
        have : compare l k = .lt := TransCmp.lt_trans hl (OrientedCmp.lt_of_gt hc)
        simp [insert, get?, hc, hl, this]
      | eq =>
        have : compare l k = .lt := TransCmp.lt_of_eq_of_lt hl (OrientedCmp.lt_of_gt hc)
        simp [insert, get?, hc, hl, this]
      | gt => simp [insert, get?, hc, hl, ih hm]

/-- Also where the keys do not ascend. -/
theorem get?_insert_ne [LawfulEqOrd κ] {m : Keyed κ α} {k l : κ} (hkl : l ≠ k) (v : α) :
    get? l (insert k v m) = get? l m := by
  have hne : compare l k ≠ .eq := fun h => hkl (LawfulEqOrd.eq_of_compare h)
  induction m with
  | nil => cases hl : compare l k <;> simp_all [insert, get?]
  | cons x m ih =>
    cases hc : compare k x.1 with
    | lt =>
      cases hl : compare l k with
      | lt => simp [insert, get?, hc, hl, TransCmp.lt_trans hl hc]
      | eq => exact absurd hl hne
      | gt => simp [insert, get?, hc, hl]
    | eq =>
      have hx : compare l x.1 ≠ .eq := by rwa [← TransCmp.congr_right hc]
      cases hl : compare l x.1 <;> simp_all [insert, get?]
    | gt => cases hl : compare l x.1 <;> simp [insert, get?, hc, hl, ih]

theorem get?_insert_eq_some [LawfulEqOrd κ] {m : Keyed κ α} {k l : κ} {v w : α} :
    get? l (insert k v m) = some w ↔ l = k ∧ v = w ∨ l ≠ k ∧ get? l m = some w := by
  by_cases hl : l = k
  · simp [hl, get?_insert_same]
  · simp [hl, get?_insert_ne hl]

theorem contains_insert_of_contains {l : κ} {m : Keyed κ α} (h : contains l m = true) (k : κ)
    (v : α) : contains l (insert k v m) = true := by
  induction m with
  | nil => cases h
  | cons x m ih =>
    rw [contains, get?] at h
    rw [contains, insert]
    cases hl : compare l x.1 with
    | lt =>
      rw [hl] at h
      cases h
    | eq =>
      cases hk : compare k x.1 with
      | lt =>
        have hpast : compare l k = .gt :=
          OrientedCmp.gt_of_lt (TransCmp.lt_of_lt_of_eq hk (OrientedCmp.eq_symm hl))
        simp [get?, hpast, hl]
      | eq => simp [get?, hl]
      | gt => simp [get?, hl]
    | gt =>
      rw [hl] at h
      cases hk : compare k x.1 with
      | lt =>
        have hpast : compare l k = .gt :=
          OrientedCmp.gt_of_lt (TransCmp.lt_trans hk (OrientedCmp.lt_of_gt hl))
        simp [get?, hpast, hl]
        exact h
      | eq => simp [get?, hl]; exact h
      | gt => simp [get?, hl]; exact ih h

theorem Ascending.gt_of_append {m n : Keyed κ α} {e : κ × α} (h : Ascending (m ++ e :: n)) :
    ∀ x ∈ m, compare e.1 x.1 = .gt := fun x hx =>
  OrientedCmp.gt_of_lt ((List.pairwise_append.mp h).2.2 x hx e List.mem_cons_self)

theorem foldl_insert_of_ascending {m n : Keyed κ α} (h : Ascending (m ++ n)) :
    n.foldl (fun m e => m.insert e.1 e.2) m = m ++ n := by
  induction n generalizing m with
  | nil => simp
  | cons e n ih =>
    rw [List.foldl_cons, insert_of_forall_gt h.gt_of_append, ih (by simpa using h)]
    simp

theorem ofList_of_ascending {m : Keyed κ α} (h : Ascending m) : ofList m = m :=
  foldl_insert_of_ascending (m := []) h

theorem Ascending.foldl_insert {m : Keyed κ α} (h : Ascending m) (n : List (κ × α)) :
    Ascending (n.foldl (fun m e => m.insert e.1 e.2) m) := by
  induction n generalizing m with
  | nil => exact h
  | cons e n ih => exact ih (h.insert e.1 e.2)

theorem ascending_ofList (n : List (κ × α)) : Ascending (ofList n) := ascending_nil.foldl_insert n

/-- Values that are put in win over those that were there. -/
theorem get?_foldl_insert {m n : Keyed κ α} (hm : Ascending m) (hn : Ascending n) (k : κ) :
    get? k (n.foldl (fun m e => m.insert e.1 e.2) m) = (get? k n).or (get? k m) := by
  induction n generalizing m with
  | nil => rfl
  | cons e n ih =>
    obtain ⟨hlt, hn⟩ := ascending_cons.mp hn
    rw [List.foldl_cons, ih (hm.insert e.1 e.2) hn, get?_insert hm]
    cases hc : compare k e.1 with
    | lt =>
      have hnone : get? k n = none :=
        get?_eq_none_of_lt fun x hx => TransCmp.lt_trans hc (hlt x hx)
      simp [get?, hc, hnone]
    | eq =>
      have hnone : get? k n = none :=
        get?_eq_none_of_lt fun x hx => TransCmp.lt_of_eq_of_lt hc (hlt x hx)
      simp [get?, hc, hnone]
    | gt => simp [get?, hc]

theorem forall_mem_foldl_insert {P : α → Prop} {m : Keyed κ α} {n : List (κ × α)}
    (hm : ∀ e ∈ m, P e.2) (hn : ∀ e ∈ n, P e.2) :
    ∀ e ∈ n.foldl (fun m e => m.insert e.1 e.2) m, P e.2 := by
  induction n generalizing m with
  | nil => exact hm
  | cons x n ih =>
    refine ih (fun e he => ?_) fun e he => hn e (List.mem_cons_of_mem _ he)
    rcases mem_insert he with ⟨-, hv⟩ | he
    · rw [hv]; exact hn x List.mem_cons_self
    · exact hm e he

theorem get?_filter {m : Keyed κ α} (h : Ascending m) [LawfulEqOrd κ] (p : κ → Bool) (k : κ) :
    get? k (m.filter fun e => p e.1) = if p k then get? k m else none := by
  have hfilter : Ascending (m.filter fun e => p e.1) := h.sublist List.filter_sublist
  refine Option.ext fun v => ?_
  rw [← mem_iff_get? hfilter, List.mem_filter, mem_iff_get? h]
  cases p k <;> simp

/-! ## Removal -/

theorem get?_erase {m : Keyed κ α} (h : Ascending m) (k l : κ) :
    get? l (erase k m) = if compare l k = .eq then none else get? l m := by
  induction m with
  | nil => simp [erase, get?]
  | cons x m ih =>
    obtain ⟨hlt, hm⟩ := ascending_cons.mp h
    cases hc : compare k x.1 with
    | lt =>
      cases hl : compare l k with
      | lt => simp [erase, hc]
      | eq => simp [erase, hc, get?, TransCmp.lt_of_eq_of_lt hl hc]
      | gt => simp [erase, hc]
    | eq =>
      rw [TransCmp.congr_right hc]
      simp only [erase, hc]
      cases hl : compare l x.1 with
      | lt =>
        have : get? l m = none := get?_eq_none_of_lt fun y hy => TransCmp.lt_trans hl (hlt y hy)
        simp [get?, hl, this]
      | eq =>
        have : get? l m = none :=
          get?_eq_none_of_lt fun y hy => TransCmp.lt_of_eq_of_lt hl (hlt y hy)
        simp [this]
      | gt => simp [get?, hl]
    | gt =>
      cases hl : compare l x.1 with
      | lt =>
        have : compare l k = .lt := TransCmp.lt_trans hl (OrientedCmp.lt_of_gt hc)
        simp [erase, get?, hc, hl, this]
      | eq =>
        have : compare l k = .lt := TransCmp.lt_of_eq_of_lt hl (OrientedCmp.lt_of_gt hc)
        simp [erase, get?, hc, hl, this]
      | gt => simp [erase, get?, hc, hl, ih hm]

theorem get?_erase_self {m : Keyed κ α} (h : Ascending m) (k : κ) : get? k (erase k m) = none := by
  rw [get?_erase h, if_pos ReflOrd.compare_self]

theorem get?_erase_ne [LawfulEqOrd κ] {m : Keyed κ α} (h : Ascending m) {k l : κ} (hkl : l ≠ k) :
    get? l (erase k m) = get? l m := by
  rw [get?_erase h, if_neg (fun e => hkl (LawfulEqOrd.eq_of_compare e))]

/-- What stands in a map that an entry was taken from stands under another key, and did before. -/
theorem get?_erase_eq_some [LawfulEqOrd κ] {m : Keyed κ α} (h : Ascending m) {k l : κ} {v : α} :
    get? l (erase k m) = some v ↔ l ≠ k ∧ get? l m = some v := by
  by_cases hl : l = k
  · subst hl
    exact iff_of_false (by simp [get?_erase_self h]) fun hne => hne.1 rfl
  · rw [get?_erase_ne h hl, and_iff_right hl]

/-! ## Keys -/

theorem mem_keys_iff_get? [LawfulEqOrd κ] {m : Keyed κ α} (h : Ascending m) {k : κ} :
    k ∈ m.keys ↔ (get? k m).isSome := by
  rw [mem_keys, Option.isSome_iff_exists]
  exact exists_congr fun v => mem_iff_get? h

theorem mem_keys_iff_contains [LawfulEqOrd κ] {m : Keyed κ α} (h : Ascending m) {k : κ} :
    k ∈ m.keys ↔ m.contains k = true := mem_keys_iff_get? h

theorem mem_keys_insert [LawfulEqOrd κ] {m : Keyed κ α} (h : Ascending m) {k l : κ} {v : α} :
    l ∈ (insert k v m).keys ↔ l = k ∨ l ∈ m.keys := by
  rw [mem_keys_iff_get? (h.insert k v), mem_keys_iff_get? h, get?_insert h]
  by_cases hl : l = k
  · simp [hl, ReflOrd.compare_self]
  · rw [if_neg fun e => hl (LawfulEqOrd.eq_of_compare e)]; simp [hl]

theorem mem_keys_foldl_insert [LawfulEqOrd κ] {m : Keyed κ α} (hm : Ascending m)
    {l : List (κ × α)} {k : κ} : k ∈ (l.foldl (fun m e => m.insert e.1 e.2) m).keys ↔
      k ∈ l.map Prod.fst ∨ k ∈ m.keys := by
  induction l generalizing m with
  | nil => simp
  | cons e l ih =>
    rw [List.foldl_cons, ih (hm.insert e.1 e.2), mem_keys_insert hm, List.map_cons, List.mem_cons]
    simp only [or_assoc, or_left_comm]

theorem mem_keys_ofList [LawfulEqOrd κ] {l : List (κ × α)} {k : κ} :
    k ∈ (ofList l).keys ↔ k ∈ l.map Prod.fst :=
  (mem_keys_foldl_insert ascending_nil).trans (or_iff_left List.not_mem_nil)

theorem mem_keys_erase [LawfulEqOrd κ] {m : Keyed κ α} (h : Ascending m) {k l : κ} :
    l ∈ (erase k m).keys ↔ l ≠ k ∧ l ∈ m.keys := by
  rw [mem_keys_iff_get? (h.erase k), mem_keys_iff_get? h, get?_erase h]
  by_cases hl : l = k
  · simp [hl, ReflOrd.compare_self]
  · rw [if_neg fun e => hl (LawfulEqOrd.eq_of_compare e)]; simp [hl]

theorem mem_keys_insert_erase [LawfulEqOrd κ] {m : Keyed κ α} (h : Ascending m) {k l : κ}
    (hk : k ∈ m.keys) (v : α) : l ∈ ((m.erase k).insert k v).keys ↔ l ∈ m.keys := by
  rw [mem_keys_insert (h.erase k), mem_keys_erase h]
  constructor
  · rintro (rfl | ⟨-, hl⟩)
    · exact hk
    · exact hl
  · intro hl
    by_cases hsame : l = k
    · exact Or.inl hsame
    · exact Or.inr ⟨hsame, hl⟩

end DocBase.Keyed
