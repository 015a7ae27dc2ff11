import DocBase.Proofs.Document.Codec
import DocBase.Proofs.Json.Parsed
import DocBase.Json.Decode

/-! What was read from JSON, written again and read again. What is written can be printed, and
nests no deeper than what was read where nothing says otherwise. -/
namespace DocBase
open Keyed

namespace Json

/-- A form of a thing that it is read from, and that is legible. -/
structure Restores {α : Type} (read : Json → Option α) (limit : Nat) (j : Json) (a : α) : Prop
    extends Legible limit j where
  reads : read j = some a

/-! ## Members -/

theorem eq_obj_of_asMembers {j : Json} {ms : Members} (h : j.asMembers = some ms) : j = .obj ms := by
  cases j <;> cases h
  rfl

theorem sizeOf_lt_of_mem {ms : Members} {name : String} {j : Json} (h : (name, j) ∈ ms) :
    sizeOf j < sizeOf (obj ms) := by
  have hmember := List.sizeOf_lt_of_mem h
  simp only [Prod.mk.sizeOf_spec, obj.sizeOf_spec] at hmember ⊢
  omega

section
variable {α : Type} {ms : Members} {name : String} {read : Json → Option α} {a : α} {limit : Nat}

theorem mem_of_find? {j : Json} (h : ms.find? name = some j) : (name, j) ∈ ms := by
  obtain ⟨l₁, l₂, rfl, -⟩ := List.lookup_eq_some_iff.mp h
  simp

theorem legible_of_find? (h : ∀ e ∈ ms, e.2.Legible limit) {j : Json}
    (hj : ms.find? name = some j) : j.Legible limit := h _ (mem_of_find? hj)

/-- Going through the members for a name is looking it up. -/
theorem eq_of_search {β : Type} (search : Members → β) {missing : β} {found : Json → β}
    (hnil : search [] = missing)
    (hcons : ∀ k j rest, search ((k, j) :: rest) = if k = name then found j else search rest)
    (ms : Members) : search ms = ((ms.find? name).map found).getD missing := by
  induction ms with
  | nil => exact hnil
  | cons e rest ih =>
    obtain ⟨k, j⟩ := e
    rw [hcons, Members.find?, List.lookup_cons]
    by_cases hk : k = name
    · simp [hk]
    · have hbeq : (name == k) = false := by simp [Ne.symm hk]
      rw [if_neg hk, hbeq]
      exact ih

theorem required_eq_of_search (search : Members → Option α) (hnil : search [] = none)
    (hcons : ∀ k j rest, search ((k, j) :: rest) = if k = name then read j else search rest)
    (ms : Members) : search ms = ms.required name read := by
  rw [eq_of_search search hnil hcons, Members.required]
  cases ms.find? name <;> rfl

theorem withDefault_eq_of_search {default : α} (search : Members → Option α)
    (hnil : search [] = some default)
    (hcons : ∀ k j rest, search ((k, j) :: rest) = if k = name then read j else search rest)
    (ms : Members) : search ms = ms.withDefault name default read := by
  rw [eq_of_search search hnil hcons, Members.withDefault]
  cases ms.find? name <;> rfl

theorem exists_of_required (h : ms.required name read = some a) :
    ∃ j, ms.find? name = some j ∧ read j = some a := Option.bind_eq_some_iff.mp h

theorem exists_of_withDefault {default : α}
    (h : ms.withDefault name default read = some a) :
    a = default ∨ ∃ j, ms.find? name = some j ∧ read j = some a := by
  rw [Members.withDefault] at h
  split at h
  next j hj => exact Or.inr ⟨j, hj, h⟩
  next => exact Or.inl (Option.some.inj h).symm

theorem exists_of_optional (h : ms.optional name read = some (some a)) :
    ∃ j, ms.find? name = some j ∧ j ≠ .null ∧ read j = some a := by
  rcases exists_of_withDefault h with hnone | ⟨j, hfind, hj⟩
  · cases hnone
  · rw [orNull.eq_def] at hj
    split at hj
    · cases hj
    next hnull =>
      obtain ⟨b, hb, hsome⟩ := Option.map_eq_some_iff.mp hj
      cases hsome
      exact ⟨_, hfind, hnull, hb⟩

/-- A record whose members have names of their own declares what it likes. -/
theorem declares_of_sublist {names : List String} (hnames : names.Nodup)
    (h : (ms.map Prod.fst).Sublist names) (declared : List String) : ms.declares declared := by
  have hnodup : (ms.map Prod.fst).Nodup := hnames.sublist h
  rw [Members.declares, List.all_eq_true]
  intro n _
  have hcount : (ms.filter (·.1 == n)).length = (ms.map Prod.fst).count n := by
    rw [List.count_eq_countP, List.countP_map, List.countP_eq_length_filter]
    rfl
  rw [decide_eq_true_iff, hcount]
  exact List.nodup_iff_count_le_one.mp hnodup n

end

/-! ## Lists and options -/

theorem exists_of_mapM {α β : Type} {f : α → Option β} {xs : List α} {ys : List β}
    (h : xs.mapM f = some ys) : ∀ y ∈ ys, ∃ x ∈ xs, f x = some y := by
  induction xs generalizing ys with
  | nil =>
    cases h
    exact fun y hy => absurd hy List.not_mem_nil
  | cons x xs ih =>
    simp only [List.mapM_cons, Option.bind_eq_bind, Option.bind_eq_some_iff] at h
    obtain ⟨y, hy, rest, hrest, h⟩ := h
    cases h
    refine List.forall_mem_cons.mpr ⟨⟨x, List.mem_cons_self, hy⟩, fun z hz => ?_⟩
    obtain ⟨w, hw, hz⟩ := ih hrest z hz
    exact ⟨w, List.mem_cons_of_mem _ hw, hz⟩

section
variable {α : Type} {read : Json → Option α} {write : α → Json} {limit limit' : Nat}

theorem mapM_eq_some_map {as : List α} (h : ∀ a ∈ as, read (write a) = some a) :
    (as.map write).mapM read = some as := by
  induction as with
  | nil => rfl
  | cons a as ih =>
    have hrest := ih fun b hb => h b (List.mem_cons_of_mem _ hb)
    simp [h a List.mem_cons_self, hrest]

theorem restores_arr {as : List α} (h : ∀ a ∈ as, Restores read limit (write a) a) :
    Restores (asList read) (limit + 1) (.arr (as.map write)) as where
  toLegible := legible_arr_iff.mpr ⟨limit, rfl, by
    intro j hj
    obtain ⟨a, ha, rfl⟩ := List.mem_map.mp hj
    exact (h a ha).toLegible⟩
  reads := mapM_eq_some_map fun a ha => (h a ha).reads

theorem exists_limit_of_asList {j : Json} {as : List α} (h : asList read j = some as)
    (hj : j.Legible limit) : ∃ n, limit = n + 1 := by
  rw [asList.eq_def] at h
  split at h
  · obtain ⟨n, hn, -⟩ := legible_arr_iff.mp hj
    exact ⟨n, hn⟩
  · cases h

/-- Lists are restored when their items are. -/
theorem restores_of_asList {j : Json} {as : List α} (h : asList read j = some as)
    (hj : j.Legible (limit + 1))
    (hitem : ∀ {i a}, read i = some a → i.Legible limit → Restores read limit' (write a) a) :
    Restores (asList read) (limit' + 1) (.arr (as.map write)) as := by
  rw [asList.eq_def] at h
  split at h
  next items =>
    obtain ⟨n, hn, hitems⟩ := legible_arr_iff.mp hj
    cases hn
    refine restores_arr fun a ha => ?_
    obtain ⟨i, hi, hread⟩ := exists_of_mapM h a ha
    exact hitem hread (hitems i hi)
  next => cases h

theorem orNull_of_ne_null {j : Json} (h : j ≠ .null) : orNull read j = (read j).map some := by
  rw [orNull.eq_def]
  split
  next heq => exact absurd rfl h
  next => rfl

theorem restores_orNull {o : Option α}
    (h : ∀ a, o = some a → Restores read limit (write a) a ∧ write a ≠ .null) :
    Restores (orNull read) limit ((o.map write).getD .null) o := by
  cases o with
  | none => exact ⟨legible_null limit, rfl⟩
  | some a =>
    obtain ⟨hrestores, hnull⟩ := h a rfl
    refine ⟨hrestores.toLegible, ?_⟩
    change orNull read (write a) = _
    rw [orNull_of_ne_null hnull, hrestores.reads]
    rfl

theorem restores_str (s : String) (limit : Nat) : Restores asString limit (.str s) s :=
  ⟨legible_str s limit, rfl⟩

theorem restores_count {j : Json} {n : Nat} (h : asCount j = some n) (limit : Nat) :
    Restores asCount limit (.int n) n := by
  have hlt : n < UInt64.size := by
    rw [asCount.eq_def] at h
    split at h
    · split at h
      next hrange =>
        cases h
        omega
      · cases h
    · cases h
  have hlt' : n < 2 ^ 64 := hlt
  refine ⟨⟨⟨by omega, by omega⟩, Nat.zero_le _⟩, ?_⟩
  rw [asCount, if_pos ⟨Int.natCast_nonneg n, by omega⟩, Int.toNat_natCast]

end

end Json
end DocBase
