import DocBase.Proofs.Query.Access

/-! Which queries do not compile. What is wrong with a part of a query is said without the
compiler; the compiler finds the first part that is faulty, before it folds anything away. -/
namespace DocBase

/-! ## The parts of queries -/

/-- A part of a query that can be faulty. -/
inductive Query.Part
  | leaf (field : String) (c : Condition)
  | sortKey (field : String)
  | projected (field : String)

def Query.Part.field : Part → String
  | leaf field _ => field
  | sortKey field => field
  | projected field => field

mutual

/-- The leaves of a filter from left to right. -/
def Filter.leaves : Filter → List Query.Part
  | .field name c => [.leaf name c]
  | .all fs => Filter.leavesOf fs
  | .any fs => Filter.leavesOf fs
  | .not f => f.leaves

def Filter.leavesOf : List Filter → List Query.Part
  | [] => []
  | f :: rest => f.leaves ++ Filter.leavesOf rest

end

def Query.leaves (q : Query) : List Part := (q.filter.map Filter.leaves).getD []

def Query.sortKeys (q : Query) : List Part := q.sort.map fun key => .sortKey key.field

def Query.projected (q : Query) : List Part :=
  ((q.projection.map Projection.fields).getD []).map .projected

/-- In the order in which they are checked. -/
def Query.parts (q : Query) : List Part := q.leaves ++ q.sortKeys ++ q.projected

/-- What can be wrong with the operand of a condition. -/
inductive Condition.IllFormed (field : String) : Condition → QueryFault → Prop
  | unordered {op : CompareOp} {v : Value} (hop : op ∈ [.gt, .gte, .lt, .lte])
      (hv : v = .null ∨ (∃ items, v = .array items) ∨ ∃ fields, v = .object fields) :
      IllFormed field (.compare op v) (.unordered op v.typeName field)
  | notIn {v : Value} (hv : ∀ items, v ≠ .array items) :
      IllFormed field (.oneOf v) (.noList "in" v.typeName field)
  | notNin {v : Value} (hv : ∀ items, v ≠ .array items) :
      IllFormed field (.noneOf v) (.noList "nin" v.typeName field)
  | refused {pattern : String} (h : Regex.compile? pattern = none) :
      IllFormed field (.regex pattern) (.badRegex pattern)

/-- A path with an empty segment, or else an operand that does not suit its condition. -/
inductive Query.Part.Faulty : Part → QueryFault → Prop
  | path {part : Part} (h : "" ∈ Path.segments part.field) : Faulty part (.fieldName part.field)
  | operand {field : String} {c : Condition} {e : QueryFault} (hfield : "" ∉ Path.segments field)
      (h : c.IllFormed field e) : Faulty (.leaf field c) e

/-! ## Checking one part -/

theorem checkField_eq (field : String) : checkField field =
    if "" ∈ Path.segments field then .error (.fieldName field) else .ok () := by
  have hempty : (Path.segments field).any (·.isEmpty) ↔ "" ∈ Path.segments field := by
    simp [List.any_eq_true]
  simp only [checkField, hempty]

theorem CompareOp.isOrdering_iff {op : CompareOp} : op.isOrdering ↔ op ∈ [gt, gte, lt, lte] := by
  cases op <;> decide

theorem Value.not_isOrdered_iff {v : Value} : v.isOrdered = false ↔
    v = .null ∨ (∃ items, v = .array items) ∨ ∃ fields, v = .object fields := by
  cases v <;> simp [isOrdered]

namespace Condition
variable {field : String} {c : Condition} {e : QueryFault}

theorem illFormed_of_compile (h : c.compile field = .error e) : c.IllFormed field e := by
  cases c with
  | compare op v =>
    rw [compile] at h
    split at h
    next hop =>
      cases h
      exact .unordered (CompareOp.isOrdering_iff.mp hop.1)
        (Value.not_isOrdered_iff.mp ((Bool.not_eq_true' _).mp hop.2))
    · cases h
  | oneOf v => cases v <;> cases h <;> exact .notIn (by simp)
  | noneOf v => cases v <;> cases h <;> exact .notNin (by simp)
  | regex pattern =>
    rw [compile] at h
    split at h
    · cases h
    next hrefused =>
      cases h
      exact .refused hrefused
  | _ => cases h

theorem IllFormed.compile (h : c.IllFormed field e) : c.compile field = .error e := by
  cases h with
  | unordered hop hv =>
    have hordered := Value.not_isOrdered_iff.mpr hv
    rw [Condition.compile, if_pos ⟨CompareOp.isOrdering_iff.mpr hop, by rw [hordered]; rfl⟩]
  | @notIn v hv =>
    cases v with
    | array items => exact absurd rfl (hv items)
    | _ => rfl
  | @notNin v hv =>
    cases v with
    | array items => exact absurd rfl (hv items)
    | _ => rfl
  | refused hrefused => rw [Condition.compile, hrefused]

end Condition

namespace Query.Part

def checkOperand : Part → Except QueryFault Unit
  | leaf field c => (fun _ => ()) <$> c.compile field
  | sortKey _ => .ok ()
  | projected _ => .ok ()

/-- The check that compiling makes of a part. -/
def check (part : Part) : Except QueryFault Unit := do
  checkField part.field
  part.checkOperand

theorem check_leaf (field : String) (c : Condition) :
    (leaf field c).check = checkField field >>= fun _ => (fun _ => ()) <$> c.compile field := rfl

theorem check_sortKey (field : String) : (sortKey field).check = checkField field :=
  bind_pure_unit

theorem check_projected (field : String) : (projected field).check = checkField field :=
  bind_pure_unit

theorem check_eq_error_iff {part : Part} {e : QueryFault} :
    part.check = .error e ↔ part.Faulty e := by
  rw [check, checkField_eq]
  split
  next hpath =>
    constructor
    · rintro ⟨⟩
      exact .path hpath
    · rintro (_ | ⟨hfield, -⟩)
      · rfl
      · exact absurd hpath hfield
  next hpath =>
    change part.checkOperand = .error e ↔ _
    constructor
    · intro h
      cases part with
      | leaf field c =>
        cases hc : c.compile field with
        | ok t => rw [checkOperand, hc] at h; cases h
        | error e' =>
          rw [checkOperand, hc] at h
          cases h
          exact .operand hpath (Condition.illFormed_of_compile hc)
      | sortKey field => cases h
      | projected field => cases h
    · rintro (hfield | ⟨-, h⟩)
      · exact absurd hfield hpath
      · rw [checkOperand, h.compile]
        rfl

theorem check_eq_ok_iff {part : Part} : part.check = .ok () ↔ ∀ e, ¬ part.Faulty e := by
  simp only [← check_eq_error_iff]
  cases part.check with
  | ok u => simp
  | error e => simp

end Query.Part

/-! ## The first faulty part -/

namespace Predicate

mutual

theorem check_ofFilter : ∀ f : Filter,
    (fun _ => ()) <$> ofFilter f = f.leaves.forM Query.Part.check
  | .field name c => by
    rw [ofFilter, Filter.leaves]
    simp [Query.Part.check_leaf]
  | .all fs => by
    rw [ofFilter, Filter.leaves, ← check_ofFilters fs]
    simp
  | .any fs => by
    rw [ofFilter, Filter.leaves, ← check_ofFilters fs]
    simp
  | .not f => by
    rw [ofFilter, Filter.leaves, ← check_ofFilter f]
    simp

theorem check_ofFilters : ∀ fs : List Filter,
    (fun _ => ()) <$> ofFilters fs = (Filter.leavesOf fs).forM Query.Part.check
  | [] => rfl
  | f :: rest => by
    have hparts : (fun _ => ()) <$> ofFilters (f :: rest) =
        ((fun _ => ()) <$> ofFilter f) >>= fun _ => (fun _ => ()) <$> ofFilters rest := by
      rw [ofFilters]
      simp
    rw [hparts, check_ofFilter f, check_ofFilters rest, Filter.leavesOf]
    exact List.forM_append.symm

end

end Predicate

namespace Query

theorem check_compiled (q : Query) :
    (fun _ => ()) <$> q.compiled = q.leaves.forM Part.check := by
  rw [compiled, leaves]
  cases q.filter with
  | none => rfl
  | some f =>
    calc (fun _ => ()) <$> Predicate.compile f
      _ = (fun _ => ()) <$> Predicate.ofFilter f := (comp_map _ _ _).symm
      _ = f.leaves.forM Part.check := Predicate.check_ofFilter f

/-- Compiling looks at all parts, one after another. -/
theorem check_predicate (q : Query) : (fun _ => ()) <$> q.predicate = q.parts.forM Part.check := by
  have hsort : q.sortKeys.forM Part.check = q.sort.forM fun key => checkField key.field := by
    rw [sortKeys]
    simp [Part.check_sortKey]
  have hprojected : q.projected.forM Part.check =
      ((q.projection.map Projection.fields).getD []).forM checkField := by
    rw [projected]
    simp [Part.check_projected]
  calc (fun _ => ()) <$> q.predicate
    _ = ((fun _ => ()) <$> q.compiled) >>= fun _ => q.sortKeys.forM Part.check >>= fun _ =>
        q.projected.forM Part.check := by
      rw [hsort, hprojected, predicate]
      simp
    _ = q.parts.forM Part.check := by
      rw [check_compiled, parts]
      simp

theorem predicate_eq_error_iff {q : Query} {e : QueryFault} : q.predicate = .error e ↔
    ∃ before part after, q.parts = before ++ part :: after ∧
      (∀ b ∈ before, ∀ e, ¬ b.Faulty e) ∧ part.Faulty e := by
  rw [← map_eq_error_iff, check_predicate, forM_eq_error_iff]
  simp only [Part.check_eq_ok_iff, Part.check_eq_error_iff]

theorem exists_error_of_faulty {q : Query} {part : Part} (hpart : part ∈ q.parts) {e : QueryFault}
    (h : part.Faulty e) : ∃ e, q.predicate = .error e := by
  have hcheck := check_predicate q
  cases hq : q.predicate with
  | error e' => exact ⟨e', rfl⟩
  | ok p =>
    rw [hq] at hcheck
    exact absurd h (Part.check_eq_ok_iff.mp (forM_eq_ok hcheck.symm part hpart) e)

end Query

theorem Plan.compile_eq_error_iff {collection : String} {q : Query} {kinds : IndexKinds}
    {e : QueryFault} : compile collection q kinds = .error e ↔ q.predicate = .error e := by
  rw [compile_eq]
  exact map_eq_error_iff

/-- A query does not compile if some part of it is faulty, wherever that stands; the first of them
decides what is said. The indexes have no say in that, nor in the predicate. -/
theorem Plan.rejects_first_faulty_part (collection : String) (q : Query) (kinds : IndexKinds) :
    ((∃ e, compile collection q kinds = .error e) ↔ ∃ part ∈ q.parts, ∃ e, part.Faulty e) ∧
    (∀ e, compile collection q kinds = .error e ↔
      ∃ before part after, q.parts = before ++ part :: after ∧
        (∀ b ∈ before, ∀ e, ¬ b.Faulty e) ∧ part.Faulty e) ∧
    ∀ kinds', (compile collection q kinds').map predicate =
      (compile collection q kinds).map predicate := by
  simp only [compile_eq_error_iff]
  refine ⟨⟨?_, ?_⟩, fun _ => Query.predicate_eq_error_iff, fun kinds' => ?_⟩
  · rintro ⟨e, h⟩
    obtain ⟨before, part, after, hparts, -, hfaulty⟩ := Query.predicate_eq_error_iff.mp h
    exact ⟨part, by simp [hparts], e, hfaulty⟩
  · rintro ⟨part, hpart, e, hfaulty⟩
    exact Query.exists_error_of_faulty hpart hfaulty
  · rw [compile_eq, compile_eq]
    cases q.predicate <;> rfl

/-- A conjunction that can never hold hides no fault, nor does a negation. -/
example :
    let q : Query := {
      filter := some (.all [.any [], .not (.field "a..b" (.present true))])
      sort := [{ field := "" }] }
    Plan.compile "c" q [] = .error (.fieldName "a..b") := by
  rfl

end DocBase
