import DocBase.Proofs.Keyed
import DocBase.Proofs.Text.ByteOrder
import DocBase.Schema.Check

/-! When documents conform to schemas. A check collects what is wrong, schema in schema and list in
list, and stops early at a value of the wrong type; conformance says what a document has to be. A
document conforms just where the check finds nothing, and otherwise the first thing found is about
the first name, in the order of bytes, at which the document does not conform. -/
namespace DocBase
open Keyed

/-! ## Conformance -/

/-- Any type, the type of the name, or a number of either kind. -/
def FieldType.Accepts (t : FieldType) (v : Value) : Prop :=
  t = .any ∨ t.name = v.typeName ∨ t = .number ∧ v.typeRank = 2

/-- How many characters a text has, and how many elements a list. -/
def Value.length? : Value → Option Nat
  | .string s => some s.length
  | .array items => some items.length
  | _ => none

/-- What the rules of a field ask of a value apart from its parts. -/
structure FieldRules.Allows (r : FieldRules) (v : Value) : Prop where
  type : r.types = [] ∨ ∃ t ∈ r.types, t.Accepts v
  value : ∀ vs, r.enumValues = some vs → ∃ w ∈ vs, v.same w
  least : ∀ x m, v.toBinary64? = some x → r.min = some m → ¬ x.isNaN ∧ ¬ x.below m
  greatest : ∀ x m, v.toBinary64? = some x → r.max = some m → ¬ x.isNaN ∧ ¬ m.below x
  shortest : ∀ n m, v.length? = some n → r.minLength = some m → m ≤ n
  longest : ∀ n m, v.length? = some n → r.maxLength = some m → n ≤ m
  pattern : ∀ s p, v = .string s → r.pattern = some p → ∃ re, p.regex = some re ∧ re.isMatch s

mutual

inductive FieldSchema.Conforms : FieldSchema → Value → Prop
  | null {rules : FieldRules} {items : Option FieldSchema} {properties : Option Schema}
    (h : rules.nullable) : FieldSchema.Conforms (.mk rules items properties) .null
  | value {rules : FieldRules} {items : Option FieldSchema} {properties : Option Schema}
    {v : Value} (h : rules.Allows v)
    (elements : ∀ xs f, v = .array xs → items = some f → ∀ x ∈ xs, FieldSchema.Conforms f x)
    (parts : ∀ fs s, v = .object fs → properties = some s → Schema.Conforms s fs) :
    FieldSchema.Conforms (.mk rules items properties) v

inductive Schema.Conforms : Schema → Fields → Prop
  | mk {s : Schema} {fs : Fields} (required : ∀ name ∈ s.required, (get? name fs).isSome)
    (declared : ∀ name f v, get? name s.fields = some f → get? name fs = some v →
      FieldSchema.Conforms f v)
    (known : s.isStrict → ∀ name, (get? name fs).isSome → (get? name s.fields).isSome) :
    Schema.Conforms s fs

end

/-- A name at which the fields do not conform. -/
inductive Schema.Offends (s : Schema) (fs : Fields) (name : String) : Prop
  | missing (h : name ∈ s.required) (hnone : get? name fs = none)
  | value {f : FieldSchema} {v : Value} (hf : get? name s.fields = some f)
    (hv : get? name fs = some v) (h : ¬ f.Conforms v)
  | unknown {v : Value} (h : s.isStrict) (hv : get? name fs = some v)
    (hnone : get? name s.fields = none)

section
variable {s : Schema} {fs : Fields} {name : String} {v : Value}

theorem Schema.offends_of_missing (hv : get? name fs = none) :
    s.Offends fs name ↔ name ∈ s.required := by
  constructor
  · rintro (⟨h, -⟩ | ⟨-, hv', -⟩ | ⟨-, hv', -⟩)
    · exact h
    · rw [hv] at hv'; cases hv'
    · rw [hv] at hv'; cases hv'
  · intro h
    exact .missing h hv

theorem Schema.offends_of_declared {f : FieldSchema} (hv : get? name fs = some v)
    (hf : get? name s.fields = some f) : s.Offends fs name ↔ ¬ f.Conforms v := by
  constructor
  · rintro (⟨-, hnone⟩ | ⟨hf', hv', h⟩ | ⟨-, -, hnone⟩)
    · rw [hv] at hnone; cases hnone
    · rw [hv] at hv'
      rw [hf] at hf'
      cases hv'
      cases hf'
      exact h
    · rw [hf] at hnone; cases hnone
  · intro h
    exact .value hf hv h

theorem Schema.offends_of_unknown (hv : get? name fs = some v)
    (hf : get? name s.fields = none) : s.Offends fs name ↔ s.isStrict := by
  constructor
  · rintro (⟨-, hnone⟩ | ⟨hf', -, -⟩ | ⟨h, -, -⟩)
    · rw [hv] at hnone; cases hnone
    · rw [hf] at hf'; cases hf'
    · exact h
  · intro h
    exact .unknown h hv hf

end

/-- The fields conform if no name offends. -/
theorem Schema.conforms_iff {s : Schema} {fs : Fields} :
    s.Conforms fs ↔ ∀ name, ¬ s.Offends fs name := by
  constructor
  · rintro ⟨hrequired, hdeclared, hknown⟩ name (⟨h, hnone⟩ | ⟨hf, hv, h⟩ | ⟨h, hv, hnone⟩)
    · have hsome := hrequired name h
      rw [hnone] at hsome
      cases hsome
    · exact h (hdeclared name _ _ hf hv)
    · have hsome := hknown h name (Option.isSome_of_eq_some hv)
      rw [hnone] at hsome
      cases hsome
  · intro hnone
    refine .mk (fun name hname => ?_) (fun name f v hf hv => ?_) fun hstrict name hname => ?_
    · by_contra h
      exact hnone name (.missing hname (Option.not_isSome_iff_eq_none.mp h))
    · by_contra h
      exact hnone name (.value hf hv h)
    · obtain ⟨v, hv⟩ := Option.isSome_iff_exists.mp hname
      by_contra h
      exact hnone name (.unknown hstrict hv (Option.not_isSome_iff_eq_none.mp h))

/-! ## Values on their own -/

theorem FieldType.admits_iff (t : FieldType) (v : Value) : t.admits v ↔ t.Accepts v := by
  unfold Accepts
  cases t <;> cases v <;> simp [admits, name, Value.typeName, Value.typeRank]

namespace FieldRules
variable {r : FieldRules} {v : Value}

theorem admitsType_iff : r.admitsType v ↔ r.types = [] ∨ ∃ t ∈ r.types, t.Accepts v := by
  rw [admitsType, Bool.or_eq_true, List.isEmpty_iff, List.any_eq_true]
  refine or_congr_right (exists_congr fun t => and_congr_right fun _ => t.admits_iff v)

theorem numberFaults_eq_nil_iff (v : Value) (x : Binary64) : r.numberFaults v x = [] ↔
    (∀ m, r.min = some m → ¬ x.isNaN ∧ ¬ x.below m) ∧
      ∀ m, r.max = some m → ¬ x.isNaN ∧ ¬ m.below x := by
  unfold numberFaults
  cases r.min <;> cases r.max <;> simp

theorem lengthFaults_eq_nil_iff (what : String) (n : Nat) : r.lengthFaults what n = [] ↔
    (∀ m, r.minLength = some m → m ≤ n) ∧ ∀ m, r.maxLength = some m → n ≤ m := by
  unfold lengthFaults
  cases r.minLength <;> cases r.maxLength <;> simp

theorem patternFaults_eq_nil_iff (s : String) : r.patternFaults s = [] ↔
    ∀ p, r.pattern = some p → ∃ re, p.regex = some re ∧ re.isMatch s := by
  unfold patternFaults
  cases r.pattern with
  | none => simp
  | some p => cases hre : p.regex <;> simp [hre]

theorem faults_eq_nil_iff : r.faults v = [] ↔
    (∀ x, v.toBinary64? = some x → r.numberFaults v x = []) ∧
      (∀ n what, v.length? = some n → r.lengthFaults what n = []) ∧
      ∀ s, v = .string s → r.patternFaults s = [] := by
  have hwhat : ∀ what what' n, r.lengthFaults what n = [] ↔ r.lengthFaults what' n = [] := by
    intro what what' n
    rw [lengthFaults_eq_nil_iff, lengthFaults_eq_nil_iff]
  cases v with
  | int n => simp [faults, Value.toBinary64?, Value.length?]
  | float x => simp [faults, Value.toBinary64?, Value.length?]
  | string s =>
    simp only [faults, Value.toBinary64?, Value.length?, List.append_eq_nil_iff]
    simp [hwhat _ "string"]
  | array xs =>
    simp only [faults, Value.toBinary64?, Value.length?]
    simp [hwhat _ "array"]
  | _ => simp [faults, Value.toBinary64?, Value.length?]

theorem allowed_iff : (r.enumValues.any fun vs => !vs.any v.same) = false ↔
    ∀ vs, r.enumValues = some vs → ∃ w ∈ vs, v.same w := by
  cases r.enumValues <;> simp

theorem allows_iff : r.Allows v ↔ r.admitsType v ∧
    (r.enumValues.any fun vs => !vs.any v.same) = false ∧ r.faults v = [] := by
  rw [admitsType_iff, allowed_iff, faults_eq_nil_iff]
  simp only [numberFaults_eq_nil_iff, lengthFaults_eq_nil_iff, patternFaults_eq_nil_iff]
  constructor
  · intro h
    exact ⟨h.type, h.value, fun x hx => ⟨fun m => h.least x m hx, fun m => h.greatest x m hx⟩,
      fun n _ hn => ⟨fun m => h.shortest n m hn, fun m => h.longest n m hn⟩,
      fun s hs p => h.pattern s p hs⟩
  · rintro ⟨htype, hvalue, hnumber, hlength, hpattern⟩
    exact ⟨htype, hvalue, fun x m hx => (hnumber x hx).1 m, fun x m hx => (hnumber x hx).2 m,
      fun n m hn => (hlength n "" hn).1 m, fun n m hn => (hlength n "" hn).2 m,
      fun s p hs => hpattern s hs p⟩

/-- A check finds nothing in a null that may be, and in what the rules allow if there is nothing in
its parts. -/
theorem screen_eq_nil_iff {path : String} {rest : List ValidationError} :
    r.screen path v rest = [] ↔ (v = .null ∧ r.nullable) ∨ (r.Allows v ∧ rest = []) := by
  have hnull : isNull v ↔ v = .null := by cases v <;> simp [isNull]
  rw [allows_iff, screen]
  by_cases h : isNull v && r.nullable
  · rw [if_pos h]
    rw [Bool.and_eq_true, hnull] at h
    simp [h]
  · rw [if_neg h]
    rw [Bool.and_eq_true, hnull] at h
    cases htype : r.admitsType v <;>
      cases hvalue : r.enumValues.any fun vs => !vs.any v.same <;> simp [h]

end FieldRules

/-! ## Names in order -/

/-- What is found at one name. -/
def findings (checks : Keyed String Checker) (required : List String) (strict : Bool)
    (parent : String) (fs : Fields) (name : String) : List ValidationError :=
  match get? name fs, get? name checks with
  | none, _ => if required.contains name then [.missingField (joinPath parent name)] else []
  | some v, some check => check (joinPath parent name) v
  | some _, none => if strict then [.unknownField (joinPath parent name)] else []

theorem sortedNames_eq (names : List String) :
    sortedNames names = keys (ofList (names.map fun name => (name, ()))) := by
  unfold sortedNames ofList
  rw [List.foldl_map]

theorem mem_sortedNames {names : List String} {name : String} :
    name ∈ sortedNames names ↔ name ∈ names := by
  rw [sortedNames_eq, mem_keys_ofList]
  simp

theorem pairwise_sortedNames (names : List String) :
    (sortedNames names).Pairwise fun a b => compare a b = .lt := by
  rw [sortedNames_eq]
  exact pairwise_keys (ascending_ofList _)

/-- The first thing in a list of lists is in the first of them that is not empty. -/
theorem exists_of_flatMap_eq_cons {α β : Type} {R : α → α → Prop} {l : List α} {f : α → List β}
    {b : β} {bs : List β} (hl : l.Pairwise R) (h : l.flatMap f = b :: bs) :
    ∃ a ∈ l, (f a).head? = some b ∧ ∀ c ∈ l, f c ≠ [] → c = a ∨ R a c := by
  induction l with
  | nil => cases h
  | cons a l ih =>
    obtain ⟨ha, hrest⟩ := List.pairwise_cons.mp hl
    rw [List.flatMap_cons] at h
    cases hfa : f a with
    | nil =>
      rw [hfa, List.nil_append] at h
      obtain ⟨d, hd, hhead, hleast⟩ := ih hrest h
      refine ⟨d, List.mem_cons_of_mem a hd, hhead, fun c hc hne => ?_⟩
      rcases List.mem_cons.mp hc with rfl | hc
      · exact absurd hfa hne
      · exact hleast c hc hne
    | cons b' rest =>
      rw [hfa, List.cons_append, List.cons.injEq] at h
      refine ⟨a, List.mem_cons_self, ?_, fun c hc _ => ?_⟩
      · rw [hfa, List.head?_cons, h.1]
      · exact (List.mem_cons.mp hc).imp id (ha c)

section
variable {checks : Keyed String Checker} {required : List String} {strict : Bool} {parent : String}
  {fs : Fields} {name : String}

/-- Nothing is found at a name that is not gone through. -/
theorem mem_names_of_findings (h : findings checks required strict parent fs name ≠ []) :
    name ∈ sortedNames (checks.keys ++ required ++ if strict then fs.keys else []) := by
  rw [mem_sortedNames, List.mem_append, List.mem_append]
  unfold findings at h
  split at h
  next =>
    split at h
    next hrequired => exact Or.inl (Or.inr (List.contains_iff_mem.mp hrequired))
    next => exact absurd rfl h
  next v check _ hcheck => exact Or.inl (Or.inl (mem_keys_of_get? hcheck))
  next v hv _ =>
    split at h
    next hstrict =>
      rw [if_pos hstrict]
      exact Or.inr (mem_keys_of_get? hv)
    next => exact absurd rfl h

theorem checkNames_eq_nil_iff : checkNames checks required strict parent fs = [] ↔
    ∀ name, findings checks required strict parent fs name = [] := by
  have hnames : checkNames checks required strict parent fs =
      (sortedNames (checks.keys ++ required ++ if strict then fs.keys else [])).flatMap
        (findings checks required strict parent fs) := rfl
  rw [hnames, List.flatMap_eq_nil_iff]
  constructor
  · intro h name
    by_contra hne
    exact hne (h name (mem_names_of_findings hne))
  · intro h name _
    exact h name

/-- What is found first is found at the least name at which anything is found. -/
theorem exists_least_of_checkNames {e : ValidationError} {es : List ValidationError}
    (h : checkNames checks required strict parent fs = e :: es) :
    ∃ name, (findings checks required strict parent fs name).head? = some e ∧
      ∀ other, findings checks required strict parent fs other ≠ [] →
        other = name ∨ compare name other = .lt := by
  obtain ⟨name, -, hhead, hleast⟩ := exists_of_flatMap_eq_cons (pairwise_sortedNames _) h
  exact ⟨name, hhead, fun other hne => hleast other (mem_names_of_findings hne) hne⟩

end

/-! ## Fields and schemas -/

theorem checkers_eq (fields : List (String × FieldSchema)) :
    checkers fields = mapValues FieldSchema.check fields := by
  induction fields with
  | nil => rfl
  | cons e rest ih => rw [checkers, ih]; rfl

section
variable {rules : FieldRules} {items : Option FieldSchema} {properties : Option Schema} {v : Value}

theorem FieldSchema.conforms_mk_iff : (mk rules items properties).Conforms v ↔
    (v = .null ∧ rules.nullable) ∨ (rules.Allows v ∧
      (∀ xs f, v = .array xs → items = some f → ∀ x ∈ xs, f.Conforms x) ∧
      ∀ fs s, v = .object fs → properties = some s → s.Conforms fs) := by
  constructor
  · intro h
    cases h with
    | null h => exact Or.inl ⟨rfl, h⟩
    | value h elements parts => exact Or.inr ⟨h, elements, parts⟩
  · rintro (⟨rfl, h⟩ | ⟨h, elements, parts⟩)
    · exact .null h
    · exact .value h elements parts

/-- A value is checked as its parts are. -/
theorem FieldSchema.check_mk_eq_nil_iff
    (hitems : ∀ f, items = some f → ∀ path v, f.check path v = [] ↔ f.Conforms v)
    (hproperties : ∀ s, properties = some s → ∀ path fs,
      s.checkFields path fs = [] ↔ s.Conforms fs) (path : String) (v : Value) :
    (mk rules items properties).check path v = [] ↔ (mk rules items properties).Conforms v := by
  rw [check, FieldRules.screen_eq_nil_iff, conforms_mk_iff]
  refine or_congr_right (and_congr_right fun _ => ?_)
  cases v with
  | array xs =>
    cases items with
    | none => simp
    | some f =>
      have helements : (xs.zipIdx.flatMap fun e => f.check s!"{path}[{e.2}]" e.1) = [] ↔
          ∀ x ∈ xs, f.Conforms x := by
        rw [List.flatMap_eq_nil_iff]
        constructor
        · intro h x hx
          obtain ⟨i, hi⟩ := List.mem_iff_getElem?.mp hx
          exact (hitems f rfl _ x).mp (h (x, i) (List.mem_zipIdx_iff_getElem?.mpr hi))
        · rintro h ⟨x, i⟩ he
          have hx : x ∈ xs := List.mem_of_getElem? (List.mem_zipIdx_iff_getElem?.mp he)
          exact (hitems f rfl _ x).mpr (h x hx)
      simpa using helements
  | object fs =>
    cases properties with
    | none => simp
    | some s => simpa using hproperties s rfl path fs
  | _ => simp

end

theorem Schema.checkFields_eq (s : Schema) (parent : String) (fs : Fields) :
    s.checkFields parent fs =
      checkNames (checkers s.fields) s.required s.isStrict parent fs := by
  cases s
  rfl

/-- Something is found at a name just where it offends. -/
theorem findings_eq_nil_iff {s : Schema}
    (h : ∀ e ∈ s.fields, ∀ path v, e.2.check path v = [] ↔ e.2.Conforms v)
    (parent : String) (fs : Fields) (name : String) :
    findings (checkers s.fields) s.required s.isStrict parent fs name = [] ↔
      ¬ s.Offends fs name := by
  unfold findings
  rw [checkers_eq, get?_mapValues]
  cases hv : get? name fs with
  | none =>
    rw [Schema.offends_of_missing hv]
    simp
  | some v =>
    cases hf : get? name s.fields with
    | none =>
      rw [Schema.offends_of_unknown hv hf]
      simp
    | some f =>
      rw [Schema.offends_of_declared hv hf, not_not]
      exact h (name, f) (mem_of_get? hf) _ v

mutual

/-- Nothing is found in a value just where it conforms. -/
theorem FieldSchema.check_eq_nil_iff : ∀ (f : FieldSchema) (path : String) (v : Value),
    f.check path v = [] ↔ f.Conforms v
  | .mk rules items properties => by
    refine FieldSchema.check_mk_eq_nil_iff ?_ ?_
    · rintro f rfl
      exact f.check_eq_nil_iff
    · rintro s rfl
      exact s.checkFields_eq_nil_iff

theorem Schema.checkFields_eq_nil_iff : ∀ (s : Schema) (parent : String) (fs : Fields),
    s.checkFields parent fs = [] ↔ s.Conforms fs
  | .mk title fields required strict => by
    intro parent fs
    rw [Schema.checkFields, checkNames_eq_nil_iff, Schema.conforms_iff]
    exact forall_congr' fun name =>
      findings_eq_nil_iff (s := .mk title fields required strict)
        (check_eq_nil_iff_of_mem fields) parent fs name

theorem check_eq_nil_iff_of_mem : ∀ (fields : List (String × FieldSchema)), ∀ e ∈ fields,
    ∀ (path : String) (v : Value), e.2.check path v = [] ↔ e.2.Conforms v
  | [], _, he => absurd he List.not_mem_nil
  | (_, f) :: rest, e, he => by
    rcases List.mem_cons.mp he with rfl | he
    · exact f.check_eq_nil_iff
    · exact check_eq_nil_iff_of_mem rest e he

end

/-! ## What is found -/

/-- The path of a value, or of one within it. -/
inductive Beneath (path : String) : String → Prop
  | here : Beneath path path
  | field {p : String} (h : Beneath path p) (name : String) : Beneath path (joinPath p name)
  | element {p : String} (h : Beneath path p) (i : Nat) : Beneath path s!"{p}[{i}]"

theorem Beneath.trans {p q r : String} (h : Beneath p q) (h' : Beneath q r) : Beneath p r := by
  induction h' with
  | here => exact h
  | field _ name ih => exact ih.field name
  | element _ i ih => exact ih.element i

theorem FieldRules.beneath_of_mem_screen {r : FieldRules} {path : String} {v : Value}
    {rest : List ValidationError} (hrest : ∀ e ∈ rest, Beneath path e.path) :
    ∀ e ∈ r.screen path v rest, Beneath path e.path := by
  intro e he
  unfold screen at he
  split at he
  · cases he
  split at he
  · rw [List.mem_singleton.mp he]
    exact .here
  split at he
  · rw [List.mem_singleton.mp he]
    exact .here
  · rcases List.mem_append.mp he with he | he
    · obtain ⟨fault, -, rfl⟩ := List.mem_map.mp he
      exact .here
    · exact hrest e he

/-- What is found among fields is found at one of their names. -/
theorem beneath_of_mem_findings {checks : Keyed String Checker} {required : List String}
    {strict : Bool} {parent : String} {fs : Fields} {name : String}
    (h : ∀ c ∈ checks, ∀ path v, ∀ e ∈ c.2 path v, Beneath path e.path) :
    ∀ e ∈ findings checks required strict parent fs name,
      Beneath (joinPath parent name) e.path := by
  intro e he
  unfold findings at he
  split at he
  next =>
    split at he
    · rw [List.mem_singleton.mp he]
      exact .here
    · cases he
  next v check _ hcheck => exact h (name, check) (mem_of_get? hcheck) _ v e he
  next =>
    split at he
    · rw [List.mem_singleton.mp he]
      exact .here
    · cases he

mutual

/-- What is found in a value is found there or within it. -/
theorem FieldSchema.beneath_of_mem_check : ∀ (f : FieldSchema) (path : String) (v : Value),
    ∀ e ∈ f.check path v, Beneath path e.path
  | .mk rules items properties, path, v => by
    rw [FieldSchema.check]
    refine FieldRules.beneath_of_mem_screen ?_
    intro e he
    cases v with
    | array xs =>
      cases items with
      | none => cases he
      | some f =>
        obtain ⟨⟨x, i⟩, -, he⟩ := List.mem_flatMap.mp he
        exact (Beneath.here.element i).trans (f.beneath_of_mem_check _ x e he)
    | object fs =>
      cases properties with
      | none => cases he
      | some s => exact s.beneath_of_mem_checkFields path fs e he
    | _ => cases he

theorem Schema.beneath_of_mem_checkFields : ∀ (s : Schema) (parent : String) (fs : Fields),
    ∀ e ∈ s.checkFields parent fs, Beneath parent e.path
  | .mk name fields required strict, parent, fs => by
    rw [Schema.checkFields, checkNames]
    intro e he
    obtain ⟨name, -, he⟩ := List.mem_flatMap.mp he
    exact (Beneath.here.field name).trans
      (beneath_of_mem_findings (beneath_of_mem_checkers fields) e he)

theorem beneath_of_mem_checkers : ∀ (fields : List (String × FieldSchema)),
    ∀ c ∈ checkers fields, ∀ (path : String) (v : Value), ∀ e ∈ c.2 path v, Beneath path e.path
  | [], _, hc => absurd hc List.not_mem_nil
  | (k, f) :: rest, c, hc => by
    rw [checkers] at hc
    rcases List.mem_cons.mp hc with rfl | hc
    · exact f.beneath_of_mem_check
    · exact beneath_of_mem_checkers rest c hc

end

/-- What an error says of a name: that it is missing, that it is unknown, or the first of what is
found in the value there. -/
inductive Schema.Blames (s : Schema) (fs : Fields) (name : String) : ValidationError → Prop
  | missing (hnone : get? name fs = none) : Schema.Blames s fs name (.missingField name)
  | value {f : FieldSchema} {v : Value} {e : ValidationError} (hf : get? name s.fields = some f)
    (hv : get? name fs = some v) (he : (f.check name v).head? = some e)
    (hpath : Beneath name e.path) : Schema.Blames s fs name e
  | unknown {v : Value} (hv : get? name fs = some v) (hnone : get? name s.fields = none) :
    Schema.Blames s fs name (.unknownField name)

theorem blames_of_findings {s : Schema} {fs : Fields} {name : String} {e : ValidationError}
    (h : (findings (checkers s.fields) s.required s.isStrict "" fs name).head? = some e) :
    s.Blames fs name e := by
  have hname : joinPath "" name = name := rfl
  unfold findings at h
  rw [checkers_eq, get?_mapValues, hname] at h
  cases hv : get? name fs with
  | none =>
    rw [hv] at h
    dsimp only at h
    split at h
    · cases h
      exact .missing hv
    · cases h
  | some v =>
    cases hf : get? name s.fields with
    | none =>
      rw [hv, hf] at h
      dsimp only [Option.map_none] at h
      split at h
      · cases h
        exact .unknown hv hf
      · cases h
    | some f =>
      rw [hv, hf] at h
      exact .value hf hv h (f.beneath_of_mem_check name v e (List.mem_of_head? h))

namespace Schema
variable {s : Schema} {d : Document}

theorem validate_eq_ok_iff : s.validate d = .ok () ↔ s.report d = [] := by
  unfold validate
  cases s.report d <;> simp

theorem report_eq_nil_iff : s.report d = [] ↔ s.Conforms d.fields :=
  s.checkFields_eq_nil_iff "" d.fields

/-- The error of a document that does not conform. -/
theorem exists_error_of_not_conforms (h : ¬ s.Conforms d.fields) :
    ∃ name e, s.validate d = .error e ∧ s.Offends d.fields name ∧
      (∀ other, s.Offends d.fields other → other = name ∨ utf8Bytes name < utf8Bytes other) ∧
      s.Blames d.fields name e := by
  cases hreport : s.report d with
  | nil => exact absurd (report_eq_nil_iff.mp hreport) h
  | cons e es =>
    have hvalidate : s.validate d = .error e := by rw [validate, hreport]
    rw [report, checkFields_eq] at hreport
    obtain ⟨name, hhead, hleast⟩ := exists_least_of_checkNames hreport
    have hoffends : ∀ other,
        findings (checkers s.fields) s.required s.isStrict "" d.fields other ≠ [] ↔
          s.Offends d.fields other := by
      intro other
      rw [Ne, findings_eq_nil_iff (check_eq_nil_iff_of_mem s.fields), not_not]
    refine ⟨name, e, hvalidate, (hoffends name).mp ?_, fun other hother => ?_,
      blames_of_findings hhead⟩
    · intro hnil
      rw [hnil] at hhead
      cases hhead
    · exact (hleast other ((hoffends other).mpr hother)).imp_right compare_eq_lt_iff_utf8Bytes.mp

/-- Nothing is reported of a document just where its fields conform. Otherwise the error is about
the first name, in the order of bytes, that offends. -/
theorem reports_nonconformance (s : Schema) (d : Document) :
    (s.report d = [] ↔ s.Conforms d.fields) ∧
      (s.validate d = .ok () ↔ s.report d = []) ∧
      (s.report d ≠ [] ↔ ∃ name e, s.validate d = .error e ∧ s.Offends d.fields name ∧
        (∀ other, s.Offends d.fields other → other = name ∨ utf8Bytes name < utf8Bytes other) ∧
        s.Blames d.fields name e) := by
  refine ⟨report_eq_nil_iff, validate_eq_ok_iff, ?_, ?_⟩
  · intro h
    exact exists_error_of_not_conforms (mt report_eq_nil_iff.mpr h)
  · rintro ⟨name, e, herror, -⟩ hnil
    rw [validate_eq_ok_iff.mpr hnil] at herror
    cases herror

end Schema
end DocBase
