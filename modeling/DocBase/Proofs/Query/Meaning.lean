import DocBase.Proofs.Action
import DocBase.Proofs.Query.Normal
import DocBase.Proofs.Value.Order

/-! What filters mean, read off the tree as callers write it, and that compiled ones mean the
same. The meaning knows neither the checks of operands nor the normal form. -/
namespace DocBase

/-! ## The meaning of filters -/

/-- How a value that may be missing relates to a literal: it differs from every literal if it is
missing, and order is between values of one type rank. -/
def CompareOp.Relates : CompareOp → Option Value → Value → Prop
  | eq, found, w => ∃ v ∈ found, compare v w = .eq
  | ne, found, w => ∀ v ∈ found, compare v w ≠ .eq
  | gt, found, w => ∃ v ∈ found, v.typeRank = w.typeRank ∧ compare v w = .gt
  | gte, found, w => ∃ v ∈ found, v.typeRank = w.typeRank ∧ compare v w ≠ .lt
  | lt, found, w => ∃ v ∈ found, v.typeRank = w.typeRank ∧ compare v w = .lt
  | lte, found, w => ∃ v ∈ found, v.typeRank = w.typeRank ∧ compare v w ≠ .gt

def Condition.Meets (found : Option Value) : Condition → Prop
  | compare op w => op.Relates found w
  | oneOf list => ∃ v ∈ found, ∃ ws, list = .array ws ∧ ∃ w ∈ ws, Ord.compare w v = .eq
  | noneOf list => ∀ v ∈ found, ∀ ws, list = .array ws → ∀ w ∈ ws, Ord.compare w v ≠ .eq
  | present wanted => found.isSome = wanted
  | regex pattern => ∃ s r, found = some (.string s) ∧ Regex.compile? pattern = some r ∧ r.isMatch s
  | contains w =>
    (∃ s part, found = some (.string s) ∧ w = .string part ∧ part.toList <:+: s.toList) ∨
      ∃ items, found = some (.array items) ∧ ∃ v ∈ items, Ord.compare v w = .eq
  | startsWith part => ∃ s, found = some (.string s) ∧ part.toList <+: s.toList
  | endsWith part => ∃ s, found = some (.string s) ∧ part.toList <:+ s.toList

/-- A missing field differs from everything and meets nothing else that is asked of a value. -/
theorem Condition.meets_none {c : Condition} : c.Meets none ↔
    (∃ w, c = .compare .ne w) ∨ (∃ w, c = .noneOf w) ∨ c = .present false := by
  cases c with
  | compare op w => cases op <;> simp [Meets, CompareOp.Relates]
  | present wanted => cases wanted <;> simp [Meets]
  | _ => simp [Meets]

/-- All of a conjunction, some of a disjunction, and not what is negated. -/
def Filter.Meets (d : Document) : Filter → Prop
  | field name c => c.Meets (d.lookup name)
  | all fs => ∀ f ∈ fs, f.Meets d
  | any fs => ∃ f, ∃ _ : f ∈ fs, f.Meets d
  | not f => ¬ f.Meets d

/-! ## Tests -/

theorem hasPart_iff {needle text : List Char} : hasPart needle text ↔ needle <:+: text := by
  induction text with
  | nil => simp [hasPart]
  | cons c cs ih => rw [hasPart, Bool.or_eq_true, List.isPrefixOf_iff_prefix, ih, List.infix_cons_iff]

theorem CompareOp.test_iff {op : CompareOp} {found : Option Value} {w : Value} :
    op.test found w ↔ op.Relates found w := by
  cases found with
  | none => cases op <;> simp [test, Relates]
  | some v =>
    have hcompare : Value.compare v w = compare v w := rfl
    by_cases hrank : v.typeRank = w.typeRank
    · cases op <;> simp [test, Relates, Value.same, Value.compare?, holdsFor, hrank, hcompare]
    · cases op <;> simp [test, Relates, Value.same, Value.compare?, hrank, hcompare]

/-- What is made of a condition holds of the values that meet it. -/
theorem Test.holds_iff {name : String} {c : Condition} {t : Test} (h : c.compile name = .ok t)
    (found : Option Value) : t.holds found ↔ c.Meets found := by
  cases c with
  | compare op w =>
    rw [Condition.compile] at h
    split at h
    · cases h
    · cases h
      exact CompareOp.test_iff
  | oneOf list =>
    cases list <;> cases h
    cases found <;> simp [holds, Condition.Meets, Value.same_iff]
  | noneOf list =>
    cases list <;> cases h
    cases found <;> simp [holds, Condition.Meets, Value.same_iff]
  | present wanted =>
    cases h
    exact beq_iff_eq
  | regex pattern =>
    rw [Condition.compile] at h
    split at h
    next r hr =>
      cases h
      cases found with
      | none => simp [holds, Condition.Meets]
      | some v => cases v <;> simp [holds, Condition.Meets, hr]
    · cases h
  | contains w =>
    cases h
    cases found with
    | none => simp [holds, Condition.Meets]
    | some v => cases v <;> cases w <;> simp [holds, Condition.Meets, hasPart_iff, Value.same_iff]
  | startsWith part =>
    cases h
    cases found with
    | none => simp [holds, Condition.Meets]
    | some v => cases v <;> simp [holds, Condition.Meets]
  | endsWith part =>
    cases h
    cases found with
    | none => simp [holds, Condition.Meets]
    | some v => cases v <;> simp [holds, Condition.Meets]

/-! ## Compiled filters -/
namespace Predicate

variable {d : Document}

mutual

theorem holds_ofFilter : ∀ {f : Filter} {p : Predicate}, ofFilter f = .ok p →
    (p.holds d ↔ f.Meets d)
  | .field name c, p, h => by
    rw [ofFilter] at h
    obtain ⟨_, -, h⟩ := bind_eq_ok h
    obtain ⟨t, ht, h⟩ := bind_eq_ok h
    cases h
    rw [holds, Filter.Meets]
    exact Test.holds_iff ht _
  | .all fs, p, h => by
    rw [ofFilter] at h
    obtain ⟨ps, hps, h⟩ := bind_eq_ok h
    cases h
    rw [holds, Filter.Meets]
    exact (holds_ofFilters hps).1
  | .any fs, p, h => by
    rw [ofFilter] at h
    obtain ⟨ps, hps, h⟩ := bind_eq_ok h
    cases h
    rw [holds, Filter.Meets]
    simpa using (holds_ofFilters hps).2
  | .not f, p, h => by
    rw [ofFilter] at h
    obtain ⟨q, hq, h⟩ := bind_eq_ok h
    cases h
    rw [holds, Filter.Meets, ← holds_ofFilter hq]
    simp

theorem holds_ofFilters : ∀ {fs : List Filter} {ps : List Predicate}, ofFilters fs = .ok ps →
    (holdsAll d ps ↔ ∀ f ∈ fs, f.Meets d) ∧ (holdsAny d ps ↔ ∃ f ∈ fs, f.Meets d)
  | [], ps, h => by
    cases h
    simp [holdsAll, holdsAny]
  | f :: rest, ps, h => by
    rw [ofFilters] at h
    obtain ⟨p, hp, h⟩ := bind_eq_ok h
    obtain ⟨qs, hqs, h⟩ := bind_eq_ok h
    cases h
    have hfirst := holds_ofFilter hp
    have hrest := holds_ofFilters hqs
    simp [holdsAll, holdsAny, hfirst, hrest]

end

/-- A compiled filter holds of the documents that meet the filter, and it is in a normal form, in
which normalizing finds nothing to do. -/
theorem compiles_to_meaning_in_normal_form {f : Filter} {p : Predicate} (h : compile f = .ok p) :
    (∀ d, p.holds d ↔ f.Meets d) ∧ p.Normal ∧ p.normalize = p := by
  obtain ⟨q, hq, rfl⟩ := map_eq_ok h
  refine ⟨fun d => ?_, normal_normalize q, normalize_of_normal (normal_normalize q)⟩
  rw [holds_normalize, holds_ofFilter hq]

/-- Under two negations a conjunction stands among the parts of another, and so does what is left
of a disjunction with a single part. -/
theorem compiles_to_meaning_of_nested :
    let a := Filter.field "a" (.compare .eq (.int 1))
    let b := Filter.field "b" (.present true)
    let c := Filter.field "c" (.startsWith "x")
    let f := Filter.all [a, .not (.not (.all [b, .all []])), .any [c, .any []]]
    let p := Predicate.all [.field "a" (.compare .eq (.int 1)), .field "b" (.present true),
      .field "c" (.startsWith "x")]
    compile f = .ok p ∧ (∀ d, p.holds d ↔ f.Meets d) ∧ p.Normal ∧ p.normalize = p := by
  intro a b c f p
  have h : compile f = .ok p := rfl
  exact ⟨h, compiles_to_meaning_in_normal_form h⟩

end Predicate
end DocBase
