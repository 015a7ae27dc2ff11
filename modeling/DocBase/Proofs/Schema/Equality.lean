import DocBase.Proofs.Schema.Fill
import DocBase.Proofs.Value.Order
import DocBase.Schema.Equality

/-! What schemas have in common that count as the same. Limits, allowed values and defaults are
compared by their size then. This makes no difference to what is found fault with, only a limit
of zero may be reported with another sign. But a default is filled in as it stands, and a whole
number is not what a floating-point number of the same size is. -/
namespace DocBase
open Keyed

/-! ## The sign of a zero -/
namespace Binary64

/-- The number, and the zero without a sign for both zeros. -/
def unsigned (x : Binary64) : Binary64 := if x.rank = 0 then zero else x

theorem unsigned_of_rank {x y : Binary64} (h : x.rank = y.rank) : x.unsigned = y.unsigned := by
  rcases eq_or_zeros_of_rank h with rfl | ⟨hx, hy⟩
  · rfl
  · rw [unsigned, unsigned, if_pos hx, if_pos hy]

theorem isNaN_of_rank {x y : Binary64} (h : x.rank = y.rank) : x.isNaN = y.isNaN := by
  rw [isNaN, isNaN, magnitude_of_rank h]

theorem below_of_rank {x y : Binary64} (h : x.rank = y.rank) (z : Binary64) :
    x.below z = y.below z ∧ z.below x = z.below y := by
  rw [below, below, below, below, isNaN_of_rank h, h]
  exact ⟨rfl, rfl⟩

end Binary64

/-! ## What is found fault with -/

/-- The limit that is spoken of, seen through `φ`. -/
def Violation.mapLimit (φ : Binary64 → Binary64) : Violation → Violation
  | belowMinimum v min => belowMinimum v (φ min)
  | aboveMaximum v max => aboveMaximum v (φ max)
  | v => v

def ValidationError.mapLimit (φ : Binary64 → Binary64) : ValidationError → ValidationError
  | constraint path v => constraint path (v.mapLimit φ)
  | e => e

theorem ValidationError.mapLimit_id : mapLimit id = id := by
  funext e
  rcases e with _ | _ | ⟨_, v⟩ | _
  case constraint => cases v <;> rfl
  all_goals rfl

theorem map_constraint (φ : Binary64 → Binary64) (path : String) (vs : List Violation) :
    (vs.map (ValidationError.constraint path)).map (ValidationError.mapLimit φ) =
      (vs.map (Violation.mapLimit φ)).map (ValidationError.constraint path) := by
  rw [List.map_map, List.map_map]
  rfl

namespace FieldRules
variable {φ : Binary64 → Binary64} {r s : FieldRules}

/-- The limits of both are the same, seen through `φ`. -/
def LimitsAlike (φ : Binary64 → Binary64) (r s : FieldRules) : Prop :=
  r.min.map φ = s.min.map φ ∧ r.max.map φ = s.max.map φ

/-- What rules have in common that count as the same. -/
structure Same (r s : FieldRules) : Prop where
  types : r.types = s.types
  nullable : r.nullable = s.nullable
  min : sameLimit r.min s.min
  max : sameLimit r.max s.max
  minLength : r.minLength = s.minLength
  maxLength : r.maxLength = s.maxLength
  pattern : r.pattern = s.pattern
  allowed : ∀ v : Value, (r.enumValues.any fun vs => !vs.any v.same) =
    s.enumValues.any fun vs => !vs.any v.same

theorem any_same_of_compareItems {vs ws : List Value} (h : Value.compareItems vs ws = .eq)
    (v : Value) : vs.any v.same = ws.any v.same := by
  induction vs generalizing ws with
  | nil =>
    cases ws with
    | nil => rfl
    | cons w ws => cases h
  | cons a vs ih =>
    cases ws with
    | nil => cases h
    | cons w ws =>
      rw [Value.compareItems, Ordering.then_eq_eq] at h
      obtain ⟨haw, hrest⟩ := h
      have hsame : v.same a = v.same w := by
        have hcongr : compare v a = compare v w := Std.TransCmp.congr_right haw
        exact congrArg (· == Ordering.eq) hcongr
      rw [List.any_cons, List.any_cons, hsame, ih hrest]

theorem pattern_eq_of_source {p q : Option Pattern} (h : p.map (·.source) = q.map (·.source)) :
    p = q := by
  rcases p with _ | ⟨source, regex, hregex⟩ <;> rcases q with _ | ⟨source', regex', hregex'⟩
  · rfl
  · cases h
  · cases h
  · obtain rfl : source = source' := Option.some.inj h
    subst hregex hregex'
    rfl

theorem Same.of_same (h : r.same s) : r.Same s := by
  simp only [same, Bool.and_eq_true, beq_iff_eq] at h
  obtain ⟨⟨⟨⟨⟨⟨⟨⟨types, nullable⟩, min⟩, max⟩, minLength⟩, maxLength⟩, pattern⟩, allowed⟩, -⟩ := h
  refine ⟨types, nullable, min, max, minLength, maxLength, pattern_eq_of_source pattern, ?_⟩
  intro v
  rcases hr : r.enumValues with _ | vs <;> rcases hs : s.enumValues with _ | ws <;>
    rw [hr, hs] at allowed
  · cases allowed
  · cases allowed
  · rw [Option.any_some, Option.any_some, any_same_of_compareItems (beq_iff_eq.mp allowed) v]

theorem rank_of_sameLimit {x y : Binary64} (h : sameLimit (some x) (some y)) : x.rank = y.rank := by
  simp only [sameLimit, Bool.and_eq_true, beq_iff_eq] at h
  exact h.2

theorem unsigned_of_sameLimit {x y : Option Binary64} (h : sameLimit x y) :
    x.map Binary64.unsigned = y.map Binary64.unsigned := by
  cases x <;> cases y
  case none.none => rfl
  case some.some => exact congrArg some (Binary64.unsigned_of_rank (rank_of_sameLimit h))
  all_goals cases h

theorem limitsAlike_of_same (h : r.same s) : LimitsAlike Binary64.unsigned r s :=
  ⟨unsigned_of_sameLimit (Same.of_same h).min, unsigned_of_sameLimit (Same.of_same h).max⟩

/-- A limit is reported alike if it is tested and spoken of alike. -/
theorem mapLimit_of_sameLimit {x y : Option Binary64} (hsame : sameLimit x y)
    (hφ : x.map φ = y.map φ) {p : Binary64 → Bool} (hp : ∀ a b, a.rank = b.rank → p a = p b)
    {report : Binary64 → Violation}
    (hreport : ∀ a b, φ a = φ b → (report a).mapLimit φ = (report b).mapLimit φ) :
    (match x with
      | some a => if p a then [report a] else []
      | none => []).map (Violation.mapLimit φ) =
    (match y with
      | some a => if p a then [report a] else []
      | none => []).map (Violation.mapLimit φ) := by
  rcases x with _ | a <;> rcases y with _ | b
  · rfl
  · cases hφ
  · cases hφ
  · dsimp only
    rw [hp a b (rank_of_sameLimit hsame)]
    split
    · exact congrArg (fun v => [v]) (hreport a b (Option.some.inj hφ))
    · rfl

theorem mapLimit_numberFaults (h : r.Same s) (hlimits : LimitsAlike φ r s) (v : Value)
    (x : Binary64) : (r.numberFaults v x).map (Violation.mapLimit φ) =
      (s.numberFaults v x).map (Violation.mapLimit φ) := by
  unfold numberFaults
  rw [List.map_append, List.map_append]
  congr 1
  · refine mapLimit_of_sameLimit h.min hlimits.1 ?_ ?_
    · intro a b hab
      rw [(Binary64.below_of_rank hab x).2]
    · intro a b hab
      exact congrArg (Violation.belowMinimum v) hab
  · refine mapLimit_of_sameLimit h.max hlimits.2 ?_ ?_
    · intro a b hab
      rw [(Binary64.below_of_rank hab x).1]
    · intro a b hab
      exact congrArg (Violation.aboveMaximum v) hab

theorem mapLimit_faults (h : r.Same s) (hlimits : LimitsAlike φ r s) (v : Value) :
    (r.faults v).map (Violation.mapLimit φ) = (s.faults v).map (Violation.mapLimit φ) := by
  have hlength : ∀ what n, r.lengthFaults what n = s.lengthFaults what n := by
    intro what n
    rw [lengthFaults, lengthFaults, h.minLength, h.maxLength]
  cases v with
  | int n => exact mapLimit_numberFaults h hlimits _ _
  | float x => exact mapLimit_numberFaults h hlimits _ _
  | string t => rw [faults, faults, hlength, patternFaults, patternFaults, h.pattern]
  | array xs => rw [faults, faults, hlength]
  | _ => rfl

theorem mapLimit_screen (h : r.Same s) (hlimits : LimitsAlike φ r s) (path : String) (v : Value)
    {rest rest' : List ValidationError}
    (hrest : rest.map (ValidationError.mapLimit φ) = rest'.map (ValidationError.mapLimit φ)) :
    (r.screen path v rest).map (ValidationError.mapLimit φ) =
      (s.screen path v rest').map (ValidationError.mapLimit φ) := by
  rw [screen, screen, admitsType, admitsType, expected, expected, h.types, h.nullable, h.allowed v]
  split
  · rfl
  split
  · rfl
  split
  · rfl
  · rw [List.map_append, List.map_append, map_constraint, map_constraint,
      mapLimit_faults h hlimits, hrest]

end FieldRules

/-! ## Field by field -/

mutual

/-- The rules of the two stand in a relation, and those of the fields that both declare, at all
depths. If `deep`, those for the elements of arrays do so as well. -/
def FieldSchema.Agree (R : FieldRules → FieldRules → Prop) (deep : Prop) :
    FieldSchema → FieldSchema → Prop
  | .mk r i p, .mk r' i' p' =>
    R r r'
      ∧ (match i, i' with
        | some f, some g => deep → f.Agree R deep g
        | _, _ => True)
      ∧ match p, p' with
        | some s, some t => s.Agree R deep t
        | _, _ => True

def Schema.Agree (R : FieldRules → FieldRules → Prop) (deep : Prop) : Schema → Schema → Prop
  | .mk _ fs _ _, .mk _ gs _ _ => AgreeFields R deep fs gs

def AgreeFields (R : FieldRules → FieldRules → Prop) (deep : Prop) :
    List (String × FieldSchema) → List (String × FieldSchema) → Prop
  | (_, f) :: fs, (_, g) :: gs => f.Agree R deep g ∧ AgreeFields R deep fs gs
  | _, _ => True

end

/-- Limits of the same bits wherever a value may be checked. -/
def Schema.SameLimits (s t : Schema) : Prop :=
  s.Agree (fun r r' => r.min = r'.min ∧ r.max = r'.max) True t

/-- Defaults of the same type and content wherever one may be filled in. The elements of
arrays are not filled in. -/
def Schema.SameDefaults (s t : Schema) : Prop :=
  s.Agree (fun r r' => r.default = r'.default) False t

section
variable {R : FieldRules → FieldRules → Prop} {deep : Prop}

theorem FieldSchema.agree_mk {r r' : FieldRules} {i i' : Option FieldSchema}
    {p p' : Option Schema} :
    (mk r i p).Agree R deep (mk r' i' p') ↔
      R r r' ∧ (∀ f g, i = some f → i' = some g → deep → f.Agree R deep g) ∧
        ∀ s t, p = some s → p' = some t → s.Agree R deep t := by
  cases i <;> cases i' <;> cases p <;> cases p' <;> simp [Agree]

mutual

theorem FieldSchema.agree_refl (hR : ∀ r, R r r) : ∀ f : FieldSchema, f.Agree R deep f
  | .mk r none none => ⟨hR r, trivial, trivial⟩
  | .mk r (some f) none => ⟨hR r, fun _ => f.agree_refl hR, trivial⟩
  | .mk r none (some s) => ⟨hR r, trivial, s.agree_refl hR⟩
  | .mk r (some f) (some s) => ⟨hR r, fun _ => f.agree_refl hR, s.agree_refl hR⟩

theorem Schema.agree_refl (hR : ∀ r, R r r) : ∀ s : Schema, s.Agree R deep s
  | .mk _ fs _ _ => agreeFields_refl hR fs

theorem agreeFields_refl (hR : ∀ r, R r r) :
    ∀ fs : List (String × FieldSchema), AgreeFields R deep fs fs
  | [] => trivial
  | (_, f) :: fs => ⟨f.agree_refl hR, agreeFields_refl hR fs⟩

end

/-- The shapes of two fields that count as the same. -/
theorem FieldSchema.same_mk {r r' : FieldRules} {i i' : Option FieldSchema} {p p' : Option Schema}
    (h : (mk r i p).same (mk r' i' p')) :
    r.same r' ∧ (i = none ∧ i' = none ∨ ∃ f g, i = some f ∧ i' = some g ∧ f.same g) ∧
      (p = none ∧ p' = none ∨ ∃ s t, p = some s ∧ p' = some t ∧ s.same t) := by
  rw [same.eq_def] at h
  simp only [Bool.and_eq_true] at h
  obtain ⟨⟨hr, hi⟩, hp⟩ := h
  refine ⟨hr, ?_, ?_⟩
  · cases i <;> cases i'
    case none.none => exact Or.inl ⟨rfl, rfl⟩
    case some.some f g => exact Or.inr ⟨f, g, rfl, rfl, hi⟩
    all_goals cases hi
  · cases p <;> cases p'
    case none.none => exact Or.inl ⟨rfl, rfl⟩
    case some.some s t => exact Or.inr ⟨s, t, rfl, rfl, hp⟩
    all_goals cases hp

theorem Schema.same_mk {n n' : String} {fs gs : List (String × FieldSchema)} {q q' : List String}
    {b b' : Bool} (h : (mk n fs q b).same (mk n' gs q' b')) :
    sameFields fs gs ∧ q = q' ∧ b = b' := by
  simp only [same, Bool.and_eq_true, beq_iff_eq] at h
  exact ⟨h.1.1.2, h.1.2, h.2⟩

theorem sameFields_cons {e e' : String × FieldSchema} {fs gs : List (String × FieldSchema)}
    (h : sameFields (e :: fs) (e' :: gs)) :
    e.1 = e'.1 ∧ e.2.same e'.2 ∧ sameFields fs gs := by
  simp only [sameFields, Bool.and_eq_true, beq_iff_eq] at h
  exact ⟨h.1.1, h.1.2, h.2⟩

mutual

theorem FieldSchema.agree_of_same (hR : ∀ r s : FieldRules, r.same s → R r s) :
    ∀ f g : FieldSchema, f.same g → f.Agree R deep g
  | .mk r i p, .mk r' i' p', h => by
    obtain ⟨hr, hi, hp⟩ := FieldSchema.same_mk h
    refine FieldSchema.agree_mk.mpr ⟨hR r r' hr, ?_, ?_⟩
    · rcases hi with ⟨rfl, rfl⟩ | ⟨f, g, rfl, rfl, hfg⟩
      · rintro _ _ ⟨⟩
      · rintro _ _ ⟨⟩ ⟨⟩ -
        exact FieldSchema.agree_of_same hR f g hfg
    · rcases hp with ⟨rfl, rfl⟩ | ⟨s, t, rfl, rfl, hst⟩
      · rintro _ _ ⟨⟩
      · rintro _ _ ⟨⟩ ⟨⟩
        exact Schema.agree_of_same hR s t hst

theorem Schema.agree_of_same (hR : ∀ r s : FieldRules, r.same s → R r s) :
    ∀ s t : Schema, s.same t → s.Agree R deep t
  | .mk _ fs _ _, .mk _ gs _ _, h => agreeFields_of_same hR fs gs (Schema.same_mk h).1

theorem agreeFields_of_same (hR : ∀ r s : FieldRules, r.same s → R r s) :
    ∀ fs gs : List (String × FieldSchema), sameFields fs gs → AgreeFields R deep fs gs
  | [], _, _ => trivial
  | _ :: _, [], _ => trivial
  | (_, f) :: fs, (_, g) :: gs, h =>
    ⟨f.agree_of_same hR g (sameFields_cons h).2.1,
      agreeFields_of_same hR fs gs (sameFields_cons h).2.2⟩

end

end

/-! ## Reports -/

/-- The check with what it reports seen through `φ`. -/
def Checker.through (φ : Binary64 → Binary64) (c : Checker) : Checker :=
  fun path v => (c path v).map (ValidationError.mapLimit φ)

section
variable {φ : Binary64 → Binary64}

/-- Absent and unknown fields are reported without a limit. -/
theorem map_checkNames (checks : Keyed String Checker) (required : List String) (strict : Bool)
    (parent : String) (fs : Fields) :
    (checkNames checks required strict parent fs).map (ValidationError.mapLimit φ) =
      checkNames (mapValues (Checker.through φ) checks) required strict parent fs := by
  unfold checkNames
  rw [keys_mapValues, List.map_flatMap]
  congr 1
  funext name
  rw [get?_mapValues]
  cases Keyed.get? name fs with
  | none =>
    dsimp only
    split <;> rfl
  | some v =>
    cases Keyed.get? name checks with
    | none =>
      dsimp only [Option.map_none]
      split <;> rfl
    | some c => rfl

mutual

theorem FieldSchema.through_check : ∀ f g : FieldSchema, f.same g →
    f.Agree (FieldRules.LimitsAlike φ) True g →
      Checker.through φ f.check = Checker.through φ g.check
  | .mk r i p, .mk r' i' p', h, hagree => by
    obtain ⟨hr, hi, hp⟩ := FieldSchema.same_mk h
    obtain ⟨hlimits, hitems, hproperties⟩ := FieldSchema.agree_mk.mp hagree
    funext path v
    unfold Checker.through FieldSchema.check
    refine FieldRules.mapLimit_screen (FieldRules.Same.of_same hr) hlimits path v ?_
    cases v with
    | array xs =>
      rcases hi with ⟨rfl, rfl⟩ | ⟨f, g, rfl, rfl, hfg⟩
      · rfl
      · have ih := FieldSchema.through_check f g hfg (hitems f g rfl rfl trivial)
        rw [List.map_flatMap, List.map_flatMap]
        congr 1
        funext e
        exact congrFun (congrFun ih _) e.1
    | object fs =>
      rcases hp with ⟨rfl, rfl⟩ | ⟨s, t, rfl, rfl, hst⟩
      · rfl
      · exact Schema.mapLimit_checkFields s t hst (hproperties s t rfl rfl) path fs
    | _ => rfl

theorem Schema.mapLimit_checkFields : ∀ s t : Schema, s.same t →
    s.Agree (FieldRules.LimitsAlike φ) True t → ∀ parent fs,
      (s.checkFields parent fs).map (ValidationError.mapLimit φ) =
        (t.checkFields parent fs).map (ValidationError.mapLimit φ)
  | .mk _ fs _ _, .mk _ gs _ _, h, hagree => by
    intro parent values
    obtain ⟨hfields, rfl, rfl⟩ := Schema.same_mk h
    unfold Schema.checkFields
    rw [map_checkNames, map_checkNames, through_checkers fs gs hfields hagree]

theorem through_checkers : ∀ fs gs : List (String × FieldSchema), sameFields fs gs →
    AgreeFields (FieldRules.LimitsAlike φ) True fs gs →
      mapValues (Checker.through φ) (checkers fs) = mapValues (Checker.through φ) (checkers gs)
  | [], [], _, _ => rfl
  | (_, f) :: fs, (_, g) :: gs, h, hagree => by
    obtain ⟨rfl, hfg, hrest⟩ := sameFields_cons h
    unfold checkers
    rw [mapValues_cons, mapValues_cons, FieldSchema.through_check f g hfg hagree.1,
      through_checkers fs gs hrest hagree.2]

end

end

/-! ## Filling in -/

mutual

/-- The names that are declared ascend, at all depths. -/
def FieldSchema.Ordered : FieldSchema → Prop
  | .mk _ items properties =>
    (match items with
      | some f => f.Ordered
      | none => True)
    ∧ match properties with
      | some s => s.Ordered
      | none => True

def Schema.Ordered : Schema → Prop
  | .mk _ fields _ _ => Ascending fields ∧ OrderedFields fields

def OrderedFields : List (String × FieldSchema) → Prop
  | [] => True
  | (_, f) :: rest => f.Ordered ∧ OrderedFields rest

end

theorem FieldSchema.ordered_mk {rules : FieldRules} {items : Option FieldSchema}
    {properties : Option Schema} :
    (mk rules items properties).Ordered ↔
      (∀ f, items = some f → f.Ordered) ∧ ∀ s, properties = some s → s.Ordered := by
  cases items <;> cases properties <;> simp [Ordered]

theorem fillAll_congr {fs gs : List (String × FieldSchema)}
    (h : mapValues FieldSchema.filled fs = mapValues FieldSchema.filled gs) (x : Fields) :
    fillAll fs x = fillAll gs x := by
  induction fs generalizing gs x with
  | nil =>
    cases gs with
    | nil => rfl
    | cons e gs => cases h
  | cons e fs ih =>
    obtain ⟨k, f⟩ := e
    cases gs with
    | nil => cases h
    | cons e' gs =>
      obtain ⟨l, g⟩ := e'
      rw [mapValues_cons, mapValues_cons, List.cons.injEq, Prod.mk.injEq] at h
      obtain ⟨⟨rfl, hfilled⟩, hrest⟩ := h
      rw [fillAll, fillAll, fillOne_eq, fillOne_eq, hfilled, ih hrest]

theorem keys_of_sameFields {fs gs : List (String × FieldSchema)} (h : sameFields fs gs) :
    Keyed.keys fs = Keyed.keys gs := by
  induction fs generalizing gs with
  | nil =>
    cases gs with
    | nil => rfl
    | cons e gs => cases h
  | cons e fs ih =>
    cases gs with
    | nil => cases h
    | cons e' gs =>
      obtain ⟨hkey, -, hrest⟩ := sameFields_cons h
      exact congrArg₂ List.cons hkey (ih hrest)

/-- Documents of one field tell what the fields are filled in with. -/
theorem fillAll_congr_iff {fs gs : List (String × FieldSchema)} (h : sameFields fs gs)
    (hfs : Ascending fs) : (∀ x, fillAll fs x = fillAll gs x) ↔
      mapValues FieldSchema.filled fs = mapValues FieldSchema.filled gs := by
  refine ⟨fun hfill => ?_, fun hfilled => fillAll_congr hfilled⟩
  have hkeys := keys_of_sameFields h
  have hgs : Ascending gs := ascending_of_keys hkeys.symm hfs
  refine ext (ascending_mapValues.mpr hfs) (ascending_mapValues.mpr hgs) fun name => ?_
  rw [get?_mapValues, get?_mapValues]
  have hdeclared : (get? name fs).isSome ↔ (get? name gs).isSome := by
    rw [← mem_keys_iff_get? hfs, ← mem_keys_iff_get? hgs, hkeys]
  rcases hf : get? name fs with _ | f <;> rcases hg : get? name gs with _ | g
  · rfl
  · rw [hf, hg] at hdeclared
    cases hdeclared.mpr rfl
  · rw [hf, hg] at hdeclared
    cases hdeclared.mp rfl
  · refine congrArg some (funext fun o => ?_)
    have hfilled : ∀ x : Fields, Ascending x → f.filled (get? name x) = g.filled (get? name x) := by
      intro x hx
      have hstands := congrArg (get? name) (hfill x)
      rwa [get?_fillAll hfs hx, get?_fillAll hgs hx, hf, hg] at hstands
    cases o with
    | none => exact hfilled [] ascending_nil
    | some v =>
      have hv := hfilled [(name, v)] (by simp [Ascending])
      rwa [show get? name [(name, v)] = some v from get?_insert_same name v []] at hv

mutual

theorem FieldSchema.filled_eq_iff : ∀ f g : FieldSchema, f.same g → f.Ordered →
    (f.filled = g.filled ↔ f.Agree (fun r r' => r.default = r'.default) False g)
  | .mk r i p, .mk r' i' p', h, hordered => by
    obtain ⟨-, -, hp⟩ := FieldSchema.same_mk h
    rw [FieldSchema.agree_mk]
    rcases hp with ⟨rfl, rfl⟩ | ⟨s, t, rfl, rfl, hst⟩
    · constructor
      · intro hfilled
        exact ⟨congrFun hfilled none, fun _ _ _ _ hdeep => hdeep.elim, by rintro _ _ ⟨⟩⟩
      · rintro ⟨hdefault, -, -⟩
        funext o
        cases o with
        | none => exact hdefault
        | some v => cases v <;> rfl
    · have ih := Schema.fill_eq_iff s t hst ((FieldSchema.ordered_mk.mp hordered).2 s rfl)
      constructor
      · intro hfilled
        refine ⟨congrFun hfilled none, fun _ _ _ _ hdeep => hdeep.elim, ?_⟩
        rintro _ _ ⟨⟩ ⟨⟩
        refine ih.mp fun x => ?_
        have hx := congrFun hfilled (some (.object x))
        exact Value.object.inj (Option.some.inj hx)
      · rintro ⟨hdefault, -, hproperties⟩
        have hfill := ih.mpr (hproperties s t rfl rfl)
        funext o
        cases o with
        | none => exact hdefault
        | some v =>
          cases v with
          | object x => exact congrArg (fun y => some (Value.object y)) (hfill x)
          | _ => rfl

theorem Schema.fill_eq_iff : ∀ s t : Schema, s.same t → s.Ordered →
    ((∀ x, s.fill x = t.fill x) ↔ s.SameDefaults t)
  | .mk _ fs _ _, .mk _ gs _ _, h, hordered => by
    have hsame := (Schema.same_mk h).1
    exact (fillAll_congr_iff hsame hordered.1).trans (mapValues_filled_eq_iff fs gs hsame hordered.2)

theorem mapValues_filled_eq_iff : ∀ fs gs : List (String × FieldSchema), sameFields fs gs →
    OrderedFields fs → (mapValues FieldSchema.filled fs = mapValues FieldSchema.filled gs ↔
      AgreeFields (fun r r' => r.default = r'.default) False fs gs)
  | [], [], _, _ => by simp [AgreeFields]
  | (_, f) :: fs, (_, g) :: gs, h, hordered => by
    obtain ⟨rfl, hfg, hrest⟩ := sameFields_cons h
    rw [mapValues_cons, mapValues_cons, AgreeFields, List.cons.injEq, Prod.mk.injEq,
      FieldSchema.filled_eq_iff f g hfg hordered.1,
      mapValues_filled_eq_iff fs gs hrest hordered.2]
    simp

end

/-! ## Preparing documents -/
namespace Schema
variable {s t : Schema}

/-- Schemas that count as the same find the same faults, and speak of the same limits up to the
sign of a zero. -/
theorem report_of_same (h : s.same t) (d : Document) :
    (s.report d).map (ValidationError.mapLimit Binary64.unsigned) =
      (t.report d).map (ValidationError.mapLimit Binary64.unsigned) := by
  have hagree : s.Agree (FieldRules.LimitsAlike Binary64.unsigned) True t :=
    s.agree_of_same (fun _ _ => FieldRules.limitsAlike_of_same) t h
  exact s.mapLimit_checkFields t h hagree "" d.fields

theorem report_of_sameLimits (h : s.same t) (hlimits : s.SameLimits t) (d : Document) :
    s.report d = t.report d := by
  have hagree : s.Agree (FieldRules.LimitsAlike id) True t := by
    unfold SameLimits at hlimits
    unfold FieldRules.LimitsAlike
    simp only [Option.map_id, id]
    exact hlimits
  have hreport := s.mapLimit_checkFields t h hagree "" d.fields
  rwa [ValidationError.mapLimit_id, List.map_id, List.map_id] at hreport

/-- The same defaults, and no others, are filled in alike everywhere. -/
theorem applyDefaults_eq_iff (h : s.same t) (hs : s.Ordered) :
    (∀ d, s.applyDefaults d = t.applyDefaults d) ↔ s.SameDefaults t := by
  rw [← fill_eq_iff s t h hs]
  constructor
  · intro hall fs
    exact congrArg Document.fields (hall { fields := fs })
  · intro hall d
    unfold applyDefaults
    rw [hall]

theorem mapError_validate {m : ValidationError → ValidationError} {d : Document}
    (h : (s.report d).map m = (t.report d).map m) :
    (s.validate d).mapError m = (t.validate d).mapError m := by
  unfold validate
  rcases hs : s.report d with _ | ⟨e, es⟩ <;> rcases ht : t.report d with _ | ⟨e', es'⟩
  · rfl
  · rw [hs, ht] at h
    cases h
  · rw [hs, ht] at h
    cases h
  · rw [hs, ht] at h
    exact congrArg Except.error (List.cons.inj h).1

theorem mapError_prepare_eq (m : ValidationError → ValidationError) (s : Schema) (d : Document) :
    (s.prepare d).mapError m =
      ((s.validate (s.applyDefaults d)).mapError m).map fun _ => s.applyDefaults d := by
  unfold prepare
  dsimp only
  cases s.validate (s.applyDefaults d) <;> rfl

theorem mapError_prepare {m : ValidationError → ValidationError} {d : Document}
    (hfill : s.applyDefaults d = t.applyDefaults d)
    (hreport : ∀ d, (s.report d).map m = (t.report d).map m) :
    (s.prepare d).mapError m = (t.prepare d).mapError m := by
  rw [mapError_prepare_eq, mapError_prepare_eq, hfill, mapError_validate (hreport _)]

theorem prepare_congr {d : Document} (hfill : s.applyDefaults d = t.applyDefaults d)
    (hreport : ∀ d, s.report d = t.report d) : s.prepare d = t.prepare d := by
  unfold prepare validate
  rw [hfill]
  dsimp only
  rw [hreport]

/-- What one schema does in the place of another that counts as the same. -/
structure StandsFor (s t : Schema) : Prop where
  report : ∀ d, (s.report d).map (ValidationError.mapLimit Binary64.unsigned) =
    (t.report d).map (ValidationError.mapLimit Binary64.unsigned)
  fill : (∀ d, s.applyDefaults d = t.applyDefaults d) ↔ s.SameDefaults t
  prepare : s.SameDefaults t → ∀ d,
    (s.prepare d).mapError (ValidationError.mapLimit Binary64.unsigned) =
      (t.prepare d).mapError (ValidationError.mapLimit Binary64.unsigned)
  exactly : s.SameDefaults t → s.SameLimits t → ∀ d, s.prepare d = t.prepare d

theorem standsFor_self (s : Schema) : s.StandsFor s := by
  have hself : s.SameDefaults s := by
    unfold SameDefaults
    exact agree_refl (fun r => Eq.refl r.default) s
  constructor
  · exact fun _ => rfl
  · exact iff_of_true (fun _ => rfl) hself
  · exact fun _ _ => rfl
  · exact fun _ _ _ => rfl

theorem standsFor_of_same (h : s.same t) (hs : s.Ordered) : s.StandsFor t := by
  have hfill := applyDefaults_eq_iff h hs
  constructor
  · exact report_of_same h
  · exact hfill
  · intro hdefaults d
    exact mapError_prepare (hfill.mpr hdefaults d) (report_of_same h)
  · intro hdefaults hlimits d
    exact prepare_congr (hfill.mpr hdefaults d) (report_of_sameLimits h hlimits)

end Schema
end DocBase
