import DocBase.Proofs.Schema.Built
import DocBase.Proofs.Schema.Equality
import DocBase.Proofs.Schema.Restored

/-! Schemas that were put together, written as JSON and read again. Whatever their rules are, they
come back, at every level, but for a default of null: it is written as a member that is null, and
read as one that is left out. -/
namespace DocBase
open Keyed

/-! ## Rules at every level -/

mutual

/-- With the rules changed, here and at all levels within. -/
def FieldSchema.mapRules (g : FieldRules → FieldRules) : FieldSchema → FieldSchema
  | .mk rules items properties =>
    .mk (g rules)
      (match items with
        | some f => some (f.mapRules g)
        | none => none)
      (match properties with
        | some s => some (s.mapRules g)
        | none => none)

def Schema.mapRules (g : FieldRules → FieldRules) : Schema → Schema
  | .mk name fields required strict => .mk name (mapFieldRules g fields) required strict

def mapFieldRules (g : FieldRules → FieldRules) :
    List (String × FieldSchema) → List (String × FieldSchema)
  | [] => []
  | (k, f) :: rest => (k, f.mapRules g) :: mapFieldRules g rest

end

section
variable {g : FieldRules → FieldRules}

theorem FieldSchema.mapRules_mk {rules : FieldRules} {items : Option FieldSchema}
    {properties : Option Schema} : (mk rules items properties).mapRules g =
      mk (g rules) (items.map (mapRules g)) (properties.map (Schema.mapRules g)) := by
  cases items <;> cases properties <;> rfl

theorem mapFieldRules_eq (fields : List (String × FieldSchema)) :
    mapFieldRules g fields = mapValues (FieldSchema.mapRules g) fields := by
  induction fields with
  | nil => rfl
  | cons e rest ih => rw [mapFieldRules, ih]; rfl

mutual

/-- A schema stays as it is if its rules do at every level. -/
theorem FieldSchema.mapRules_eq_self_iff : ∀ f : FieldSchema,
    f.mapRules g = f ↔ f.Each fun r => g r = r
  | .mk rules items properties => by
    have hitems : items.map (FieldSchema.mapRules g) = items ↔
        ∀ f, items = some f → f.Each fun r => g r = r := by
      cases items with
      | none => simp
      | some f => simpa using f.mapRules_eq_self_iff
    have hproperties : properties.map (Schema.mapRules g) = properties ↔
        ∀ s, properties = some s → s.Each fun r => g r = r := by
      cases properties with
      | none => simp
      | some s => simpa using s.mapRules_eq_self_iff
    rw [FieldSchema.mapRules_mk, FieldSchema.each_mk, FieldSchema.mk.injEq, hitems, hproperties]

theorem Schema.mapRules_eq_self_iff : ∀ s : Schema,
    s.mapRules g = s ↔ s.Each fun r => g r = r
  | .mk name fields required strict => by
    rw [Schema.mapRules, Schema.mk.injEq, Schema.Each, mapFieldRules_eq_self_iff fields]
    simp

theorem mapFieldRules_eq_self_iff : ∀ fields : List (String × FieldSchema),
    mapFieldRules g fields = fields ↔ EachField (fun r => g r = r) fields
  | [] => by simp [mapFieldRules, EachField]
  | (k, f) :: rest => by
    rw [mapFieldRules, EachField, List.cons.injEq, Prod.mk.injEq, f.mapRules_eq_self_iff,
      mapFieldRules_eq_self_iff rest]
    simp

end

mutual

/-- Schemas count as the same if their rules do at every level. -/
theorem FieldSchema.same_mapRules_iff : ∀ f : FieldSchema,
    (f.mapRules g).same f ↔ f.Each fun r => (g r).same r
  | .mk rules none none => by
    simp [FieldSchema.mapRules, FieldSchema.same, FieldSchema.Each]
  | .mk rules none (some s) => by
    simp [FieldSchema.mapRules, FieldSchema.same, FieldSchema.Each, s.same_mapRules_iff]
  | .mk rules (some f) none => by
    simp [FieldSchema.mapRules, FieldSchema.same, FieldSchema.Each, f.same_mapRules_iff]
  | .mk rules (some f) (some s) => by
    simp [FieldSchema.mapRules, FieldSchema.same, FieldSchema.Each, f.same_mapRules_iff,
      s.same_mapRules_iff, and_assoc]

theorem Schema.same_mapRules_iff : ∀ s : Schema,
    (s.mapRules g).same s ↔ s.Each fun r => (g r).same r
  | .mk name fields required strict => by
    simp [Schema.mapRules, Schema.same, Schema.Each, sameFields_mapFieldRules_iff fields]

theorem sameFields_mapFieldRules_iff : ∀ fields : List (String × FieldSchema),
    sameFields (mapFieldRules g fields) fields ↔ EachField (fun r => (g r).same r) fields
  | [] => by simp [mapFieldRules, sameFields, EachField]
  | (k, f) :: rest => by
    simp [mapFieldRules, sameFields, EachField, f.same_mapRules_iff,
      sameFields_mapFieldRules_iff rest]

end

mutual

/-- Checks that the rules do not tell apart find the same at every level. -/
theorem FieldSchema.check_mapRules (hg : ∀ r, (g r).screen = r.screen) : ∀ f : FieldSchema,
    (f.mapRules g).check = f.check
  | .mk rules items properties => by
    rw [FieldSchema.mapRules_mk, FieldSchema.check.eq_def, FieldSchema.check.eq_def]
    dsimp only
    rw [hg rules]
    funext path v
    cases v with
    | array xs =>
      cases items with
      | none => rfl
      | some f => simp only [Option.map_some, f.check_mapRules hg]
    | object fs =>
      cases properties with
      | none => rfl
      | some s => simp only [Option.map_some, s.checkFields_mapRules hg]
    | _ => rfl

theorem Schema.checkFields_mapRules (hg : ∀ r, (g r).screen = r.screen) : ∀ s : Schema,
    (s.mapRules g).checkFields = s.checkFields
  | .mk name fields required strict => by
    funext path fs
    rw [Schema.mapRules, Schema.checkFields, Schema.checkFields, checkers_mapFieldRules hg fields]

theorem checkers_mapFieldRules (hg : ∀ r, (g r).screen = r.screen) :
    ∀ fields : List (String × FieldSchema), checkers (mapFieldRules g fields) = checkers fields
  | [] => rfl
  | (k, f) :: rest => by
    rw [mapFieldRules, checkers, checkers, f.check_mapRules hg, checkers_mapFieldRules hg rest]

end

end

/-! ## Rules -/
namespace FieldRules

/-- The numbers in the rules are finite. -/
structure Finite (r : FieldRules) : Prop where
  min : ∀ x, r.min = some x → x.isFinite
  max : ∀ x, r.max = some x → x.isFinite
  enumValues : ∀ vs, r.enumValues = some vs → ∀ v ∈ vs, v.nonFinitePath "" = none
  default : ∀ v, r.default = some v → v.nonFinitePath "" = none

/-- A default of null is none at all. -/
def withoutNull (r : FieldRules) : FieldRules :=
  { r with default := r.default.filter fun v => !isNull v }

variable {r : FieldRules}

theorem screen_withoutNull (r : FieldRules) : r.withoutNull.screen = r.screen := rfl

theorem withoutNull_eq_self_iff : r.withoutNull = r ↔ r.default ≠ some .null := by
  obtain ⟨types, nullable, min, max, minLength, maxLength, pattern, enumValues, default⟩ := r
  cases default with
  | none => simp [withoutNull]
  | some v => cases v <;> simp [withoutNull, isNull]

theorem same_self (h : r.Finite) : r.same r := by
  have hlimit : ∀ o : Option Binary64, (∀ x, o = some x → x.isFinite) → sameLimit o o := by
    intro o ho
    cases o with
    | none => rfl
    | some x =>
      have hfinite : x.magnitude < Binary64.topMagnitude := of_decide_eq_true (ho x rfl)
      have hnan : x.isNaN = false := decide_eq_false (Nat.not_lt.mpr hfinite.le)
      simp [sameLimit, hnan]
  have hvalues : ∀ vs, Value.compareItems vs vs = .eq := by
    intro vs
    exact Std.ReflOrd.compare_self (a := Value.array vs)
  have hvalue : ∀ v : Value, v.same v := fun v => Value.same_iff.mpr Std.ReflOrd.compare_self
  rw [same, hlimit r.min h.min, hlimit r.max h.max]
  cases r.enumValues <;> cases r.default <;> simp [hvalues, hvalue]

theorem same_withoutNull_iff (h : r.Finite) : r.withoutNull.same r ↔ r.default ≠ some .null := by
  constructor
  · intro hsame hdefault
    simp [same, withoutNull, hdefault, isNull] at hsame
  · intro hdefault
    rw [withoutNull_eq_self_iff.mpr hdefault]
    exact same_self h

end FieldRules

/-! ## Reading back -/

theorem Json.Restores.mono {α : Type} {read : Json → Option α} {n n' : Nat} {j : Json} {a : α}
    (h : Json.Restores read n j a) (hle : n ≤ n') : Json.Restores read n' j a :=
  ⟨h.toLegible.mono hle, h.reads⟩

theorem Json.exists_restores_orNull {α : Type} {read : Json → Option α} {write : α → Json}
    {g : α → α} {o : Option α}
    (h : ∀ a, o = some a → ∃ n, Json.Restores read n (write a) (g a))
    (hnull : ∀ a, o = some a → write a ≠ .null) :
    ∃ n, Json.Restores (Json.orNull read) n ((o.map write).getD .null) (o.map g) := by
  cases o with
  | none => exact ⟨0, Json.legible_null 0, rfl⟩
  | some a =>
    obtain ⟨n, hn⟩ := h a rfl
    refine ⟨n, hn.toLegible, ?_⟩
    change Json.orNull read (write a) = _
    rw [Json.orNull_of_ne_null (hnull a rfl), hn.reads]
    rfl

theorem Value.restores_toJson {v : Value} (h : v.WellFormed) (hfinite : v.nonFinitePath "" = none) :
    Json.Restores (fun j => some (ofJson j)) v.toJson.depth v.toJson v :=
  ⟨⟨printable_toJson v, le_rfl⟩, congrArg some (ofJson_toJson h hfinite)⟩

namespace FieldRules
variable {r : FieldRules}

theorem Readable.mono {n n' : Nat} (h : r.Readable n) (hle : n ≤ n') : r.Readable n' where
  min x hx := ⟨(h.min x hx).1.mono hle, (h.min x hx).2⟩
  max x hx := ⟨(h.max x hx).1.mono hle, (h.max x hx).2⟩
  minLength n hn := (h.minLength n hn).mono hle
  maxLength n hn := (h.maxLength n hn).mono hle
  enumValues vs hvs := (h.enumValues vs hvs).mono hle

theorem restores_length {n : Nat} (h : n < UInt64.size) (limit : Nat) :
    Json.Restores Json.asCount limit (.int n) n := by
  refine Json.restores_count (j := .int n) ?_ limit
  have hlt : (n : Int) < UInt64.size := by exact_mod_cast h
  rw [Json.asCount, if_pos ⟨Int.natCast_nonneg n, hlt⟩, Int.toNat_natCast]

theorem exists_readable (h : r.Sound) (hfinite : r.Finite) : ∃ n, r.Readable n := by
  have hvalues : ∃ n, ∀ vs, r.enumValues = some vs →
      Json.Restores (Json.asList fun j => some (Value.ofJson j)) n
        (.arr (Value.toJsonItems vs)) vs := by
    cases henum : r.enumValues with
    | none => exact ⟨0, nofun⟩
    | some vs =>
      refine ⟨(Json.arr (Value.toJsonItems vs)).depth, ?_⟩
      rintro _ ⟨⟩
      refine ⟨⟨Value.printable_toJsonItems vs, le_rfl⟩, ?_⟩
      rw [Value.toJsonItems_eq]
      refine Json.mapM_eq_some_map fun v hv => ?_
      exact congrArg some (Value.ofJson_toJson (h.enumValues vs henum v hv)
        (hfinite.enumValues vs henum v hv))
  obtain ⟨n, hn⟩ := hvalues
  exact ⟨n, fun x hx => restores_finite (hfinite.min x hx),
    fun x hx => restores_finite (hfinite.max x hx),
    fun k hk => restores_length (h.minLength k hk) n,
    fun k hk => restores_length (h.maxLength k hk) n, hn⟩

/-- The member of a null and that of no default are read alike. -/
theorem exists_restores_default (h : r.Sound) (hfinite : r.Finite) :
    ∃ n, Json.Restores (Json.orNull fun j => some (Value.ofJson j)) n
      ((r.default.map Value.toJson).getD .null) r.withoutNull.default := by
  by_cases hnull : r.default = some .null
  · refine ⟨0, ?_⟩
    rw [withoutNull, hnull]
    exact ⟨Json.legible_null 0, rfl⟩
  · rw [withoutNull_eq_self_iff.mpr hnull]
    cases hdefault : r.default with
    | none => exact ⟨0, Json.legible_null 0, rfl⟩
    | some v =>
      refine ⟨v.toJson.depth, Json.restores_orNull ?_⟩
      rintro _ ⟨⟩
      refine ⟨Value.restores_toJson (h.default v hdefault) (hfinite.default v hdefault),
        Value.toJson_ne_null (hfinite.default v hdefault) ?_⟩
      rintro rfl
      exact hnull hdefault

end FieldRules

mutual

/-- What is written of a field is read back, at some depth. -/
theorem FieldSchema.exists_restores : ∀ f : FieldSchema, f.Ordered → f.Each FieldRules.Sound →
    f.Each FieldRules.Finite →
      ∃ n, Json.Restores FieldSchema.ofJson? n f.toJson (f.mapRules FieldRules.withoutNull)
  | .mk rules items properties, hordered, hsound, hfinite => by
    obtain ⟨horderedItems, horderedProperties⟩ := FieldSchema.ordered_mk.mp hordered
    obtain ⟨hrules, hsoundItems, hsoundProperties⟩ := FieldSchema.each_mk.mp hsound
    obtain ⟨hnumbers, hfiniteItems, hfiniteProperties⟩ := FieldSchema.each_mk.mp hfinite
    obtain ⟨k, hreadable⟩ := FieldRules.exists_readable hrules hnumbers
    obtain ⟨l, hdefault⟩ := FieldRules.exists_restores_default hrules hnumbers
    have hitem : ∀ f, items = some f → ∃ n, Json.Restores FieldSchema.ofJson? n f.toJson
        (f.mapRules FieldRules.withoutNull) := by
      rintro f rfl
      exact f.exists_restores (horderedItems f rfl) (hsoundItems f rfl) (hfiniteItems f rfl)
    have hproperty : ∀ s, properties = some s → ∃ n, Json.Restores Schema.ofJson? n s.toJson
        (s.mapRules FieldRules.withoutNull) := by
      rintro s rfl
      exact s.exists_restores (horderedProperties s rfl) (hsoundProperties s rfl)
        (hfiniteProperties s rfl)
    obtain ⟨m, hitems⟩ := Json.exists_restores_orNull hitem fun f _ => f.toJson_ne_null
    obtain ⟨n, hproperties⟩ := Json.exists_restores_orNull hproperty fun s _ => s.toJson_ne_null
    rw [FieldSchema.mapRules_mk]
    exact ⟨_, FieldSchema.restores_mk_of (n := k + l + m + n) (hreadable.mono (by omega))
      (hdefault.mono (by omega)) (hitems.mono (by omega)) (hproperties.mono (by omega))⟩

theorem Schema.exists_restores : ∀ s : Schema, s.Ordered → s.Each FieldRules.Sound →
    s.Each FieldRules.Finite →
      ∃ n, Json.Restores Schema.ofJson? n s.toJson (s.mapRules FieldRules.withoutNull)
  | .mk name fields required strict, hordered, hsound, hfinite => by
    obtain ⟨n, hfields⟩ := exists_restores_of_mem fields hordered.2 hsound hfinite
    rw [Schema.mapRules, mapFieldRules_eq]
    exact ⟨n + 2, Schema.restores_mk_of hordered.1 hfields⟩

theorem exists_restores_of_mem : ∀ fields : List (String × FieldSchema), OrderedFields fields →
    EachField FieldRules.Sound fields → EachField FieldRules.Finite fields →
      ∃ n, ∀ e ∈ fields, Json.Restores FieldSchema.ofJson? n e.2.toJson
        (e.2.mapRules FieldRules.withoutNull)
  | [], _, _, _ => ⟨0, nofun⟩
  | (k, f) :: rest, hordered, hsound, hfinite => by
    obtain ⟨m, hf⟩ := f.exists_restores hordered.1 hsound.1 hfinite.1
    obtain ⟨n, hrest⟩ := exists_restores_of_mem rest hordered.2 hsound.2 hfinite.2
    refine ⟨m + n, List.forall_mem_cons.mpr ⟨hf.mono (by omega), fun e he => ?_⟩⟩
    exact (hrest e he).mono (by omega)

end

end DocBase
