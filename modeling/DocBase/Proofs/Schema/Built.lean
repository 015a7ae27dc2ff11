import DocBase.Proofs.Schema.Complete

/-! Schemas as they are put together, one part after the other. Whatever is put together declares
its names in order, and its lengths fit 64 bits. -/
namespace DocBase
open Keyed

/-! ## At every level -/

mutual

/-- The rules satisfy `R`, here and at all levels within. -/
def FieldSchema.Each (R : FieldRules → Prop) : FieldSchema → Prop
  | .mk rules items properties =>
    R rules
    ∧ (match items with
      | some f => f.Each R
      | none => True)
    ∧ match properties with
      | some s => s.Each R
      | none => True

def Schema.Each (R : FieldRules → Prop) : Schema → Prop
  | .mk _ fields _ _ => EachField R fields

def EachField (R : FieldRules → Prop) : List (String × FieldSchema) → Prop
  | [] => True
  | (_, f) :: rest => f.Each R ∧ EachField R rest

end

section
variable {R : FieldRules → Prop}

theorem FieldSchema.each_mk {rules : FieldRules} {items : Option FieldSchema}
    {properties : Option Schema} : (mk rules items properties).Each R ↔
      R rules ∧ (∀ f, items = some f → f.Each R) ∧ ∀ s, properties = some s → s.Each R := by
  cases items <;> cases properties <;> simp [Each]

theorem eachField_iff {fields : List (String × FieldSchema)} :
    EachField R fields ↔ ∀ e ∈ fields, e.2.Each R := by
  induction fields with
  | nil => simp [EachField]
  | cons e rest ih => rw [EachField, ih, List.forall_mem_cons]

theorem Schema.each_iff {s : Schema} : s.Each R ↔ ∀ e ∈ s.fields, e.2.Each R := by
  obtain ⟨_, fields, _, _⟩ := s
  exact eachField_iff

mutual

theorem FieldSchema.each_congr {P Q : FieldRules → Prop} (h : ∀ r, R r → (P r ↔ Q r)) :
    ∀ f : FieldSchema, f.Each R → (f.Each P ↔ f.Each Q)
  | .mk rules items properties, hR => by
    obtain ⟨hrules, hitems, hproperties⟩ := FieldSchema.each_mk.mp hR
    rw [FieldSchema.each_mk, FieldSchema.each_mk, h rules hrules]
    refine and_congr_right fun _ => and_congr (forall₂_congr ?_) (forall₂_congr ?_)
    · rintro f rfl
      exact f.each_congr h (hitems f rfl)
    · rintro s rfl
      exact s.each_congr h (hproperties s rfl)

theorem Schema.each_congr {P Q : FieldRules → Prop} (h : ∀ r, R r → (P r ↔ Q r)) :
    ∀ s : Schema, s.Each R → (s.Each P ↔ s.Each Q)
  | .mk _ fields _ _, hR => eachField_congr h fields hR

theorem eachField_congr {P Q : FieldRules → Prop} (h : ∀ r, R r → (P r ↔ Q r)) :
    ∀ fields : List (String × FieldSchema), EachField R fields →
      (EachField P fields ↔ EachField Q fields)
  | [], _ => Iff.rfl
  | (_, f) :: rest, hR => and_congr (f.each_congr h hR.1) (eachField_congr h rest hR.2)

end

theorem FieldSchema.each_modify {f : FieldSchema} {g : FieldRules → FieldRules} (h : f.Each R)
    (hg : R f.rules → R (g f.rules)) : (f.modify g).Each R := by
  obtain ⟨rules, items, properties⟩ := f
  rw [each_mk] at h
  exact each_mk.mpr ⟨hg h.1, h.2⟩

theorem Schema.each_field {s : Schema} {f : FieldSchema} (hs : s.Each R) (hf : f.Each R)
    (name : String) : (s.field name f).Each R := by
  rw [each_iff] at hs ⊢
  intro e he
  rcases mem_insert he with ⟨-, heq⟩ | he
  · exact heq ▸ hf
  · exact hs e he

end

/-! ## Names in order -/

theorem FieldSchema.ordered_modify {f : FieldSchema} (h : f.Ordered)
    (g : FieldRules → FieldRules) : (f.modify g).Ordered := by
  obtain ⟨rules, items, properties⟩ := f
  exact ordered_mk.mpr (ordered_mk.mp h)

theorem Schema.ordered_iff {s : Schema} :
    s.Ordered ↔ Ascending s.fields ∧ ∀ e ∈ s.fields, e.2.Ordered := by
  obtain ⟨_, fields, _, _⟩ := s
  exact and_congr_right fun _ => orderedFields_iff

theorem Schema.ordered_field {s : Schema} {f : FieldSchema} (hs : s.Ordered) (hf : f.Ordered)
    (name : String) : (s.field name f).Ordered := by
  rw [ordered_iff] at hs ⊢
  refine ⟨hs.1.insert name f, fun e he => ?_⟩
  rcases mem_insert he with ⟨-, heq⟩ | he
  · exact heq ▸ hf
  · exact hs.2 e he

/-! ## Putting schemas together -/

mutual

/-- A field schema that begins with its types and gets its other rules one by one. -/
inductive FieldSchema.Built : FieldSchema → Prop
  | ofTypes (types : List FieldType) : FieldSchema.Built (.ofTypes types)
  | arrayOf {items : FieldSchema} (h : items.Built) : FieldSchema.Built (.arrayOf items)
  | objectOf {s : Schema} (h : s.Built) : FieldSchema.Built (.objectOf s)
  | nullable {f : FieldSchema} (h : f.Built) : FieldSchema.Built f.nullable
  | min {f : FieldSchema} (h : f.Built) (x : Binary64) : FieldSchema.Built (f.min x)
  | max {f : FieldSchema} (h : f.Built) (x : Binary64) : FieldSchema.Built (f.max x)
  | minLength {f : FieldSchema} (h : f.Built) {n : Nat} (hn : n < UInt64.size) :
    FieldSchema.Built (f.minLength n)
  | maxLength {f : FieldSchema} (h : f.Built) {n : Nat} (hn : n < UInt64.size) :
    FieldSchema.Built (f.maxLength n)
  | pattern {f : FieldSchema} (h : f.Built) (source : String) : FieldSchema.Built (f.pattern source)
  | enumValues {f : FieldSchema} (h : f.Built) {vs : List Value} (hvs : ∀ v ∈ vs, v.WellFormed) :
    FieldSchema.Built (f.enumValues vs)
  | default {f : FieldSchema} (h : f.Built) {v : Value} (hv : v.WellFormed) :
    FieldSchema.Built (f.default v)

/-- A schema that begins with its name and gets its fields one by one. -/
inductive Schema.Built : Schema → Prop
  | named (name : String) : Schema.Built (.named name)
  | field {s : Schema} (hs : s.Built) (name : String) {f : FieldSchema} (hf : f.Built) :
    Schema.Built (s.field name f)
  | require {s : Schema} (h : s.Built) (name : String) : Schema.Built (s.require name)
  | strict {s : Schema} (h : s.Built) (on : Bool) : Schema.Built (s.strict on)

end

theorem FieldSchema.Built.ofType (t : FieldType) : Built (.ofType t) := .ofTypes [t]

/-- Lengths fit 64 bits, and the fields of objects in values ascend. -/
structure FieldRules.Sound (r : FieldRules) : Prop where
  minLength : ∀ n, r.minLength = some n → n < UInt64.size
  maxLength : ∀ n, r.maxLength = some n → n < UInt64.size
  enumValues : ∀ vs, r.enumValues = some vs → ∀ v ∈ vs, v.WellFormed
  default : ∀ v, r.default = some v → v.WellFormed

theorem FieldRules.sound_ofTypes (types : List FieldType) : Sound { types } :=
  ⟨nofun, nofun, nofun, nofun⟩

theorem FieldSchema.sound_modify {f : FieldSchema} {g : FieldRules → FieldRules}
    (h : f.Ordered ∧ f.Each FieldRules.Sound) (hg : f.rules.Sound → (g f.rules).Sound) :
    (f.modify g).Ordered ∧ (f.modify g).Each FieldRules.Sound :=
  ⟨ordered_modify h.1 g, each_modify h.2 hg⟩

theorem Schema.sound_of_fields {s t : Schema} (h : s.Ordered ∧ s.Each FieldRules.Sound)
    (hfields : t.fields = s.fields) : t.Ordered ∧ t.Each FieldRules.Sound := by
  rw [ordered_iff, each_iff, hfields]
  rwa [ordered_iff, each_iff] at h

mutual

theorem FieldSchema.Built.sound : ∀ {f : FieldSchema}, f.Built →
    f.Ordered ∧ f.Each FieldRules.Sound
  | _, .ofTypes types => ⟨⟨trivial, trivial⟩, FieldRules.sound_ofTypes types, trivial, trivial⟩
  | _, .arrayOf h => ⟨⟨h.sound.1, trivial⟩, FieldRules.sound_ofTypes _, h.sound.2, trivial⟩
  | _, .objectOf h => ⟨⟨trivial, h.sound.1⟩, FieldRules.sound_ofTypes _, trivial, h.sound.2⟩
  | _, .nullable h => FieldSchema.sound_modify h.sound fun hr => { hr with }
  | _, .min h x => FieldSchema.sound_modify h.sound fun hr => { hr with }
  | _, .max h x => FieldSchema.sound_modify h.sound fun hr => { hr with }
  | _, .minLength h hn =>
    FieldSchema.sound_modify h.sound fun hr =>
      { hr with minLength := fun _ hsome => Option.some.inj hsome ▸ hn }
  | _, .maxLength h hn =>
    FieldSchema.sound_modify h.sound fun hr =>
      { hr with maxLength := fun _ hsome => Option.some.inj hsome ▸ hn }
  | _, .pattern h source => FieldSchema.sound_modify h.sound fun hr => { hr with }
  | _, .enumValues h hvs =>
    FieldSchema.sound_modify h.sound fun hr =>
      { hr with enumValues := fun _ hsome => Option.some.inj hsome ▸ hvs }
  | _, .default h hv =>
    FieldSchema.sound_modify h.sound fun hr =>
      { hr with default := fun _ hsome => Option.some.inj hsome ▸ hv }

theorem Schema.Built.sound : ∀ {s : Schema}, s.Built → s.Ordered ∧ s.Each FieldRules.Sound
  | _, .named name => ⟨⟨ascending_nil, trivial⟩, trivial⟩
  | _, .field hs name hf =>
    ⟨Schema.ordered_field hs.sound.1 hf.sound.1 name, Schema.each_field hs.sound.2 hf.sound.2 name⟩
  | _, .require h name => Schema.sound_of_fields h.sound rfl
  | _, .strict h on => Schema.sound_of_fields h.sound rfl

end

end DocBase
