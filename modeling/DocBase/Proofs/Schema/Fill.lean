import DocBase.Proofs.Document.Edit
import DocBase.Schema.Check

/-! Which fields the defaults of a schema add to a document. A schema declares its fields
under any names, those of the engine among them, and fills these in like all others. -/
namespace DocBase
open Keyed

mutual

/-- The defaults that are filled in are values as they come from JSON. -/
def FieldSchema.WellFormed : FieldSchema → Prop
  | .mk rules _ none => ∀ v, rules.default = some v → v.WellFormed
  | .mk rules _ (some s) => (∀ v, rules.default = some v → v.WellFormed) ∧ s.WellFormed

def Schema.WellFormed : Schema → Prop
  | .mk _ fields _ _ => WellFormedDeclared fields

def WellFormedDeclared : List (String × FieldSchema) → Prop
  | [] => True
  | (_, f) :: rest => f.WellFormed ∧ WellFormedDeclared rest

end

theorem wellFormedDeclared_iff {fields : List (String × FieldSchema)} :
    WellFormedDeclared fields ↔ ∀ e ∈ fields, e.2.WellFormed := by
  induction fields with
  | nil => simp [WellFormedDeclared]
  | cons e rest ih =>
    obtain ⟨k, f⟩ := e
    simp [WellFormedDeclared, ih]

/-- A default comes in where nothing is, an object that is there is filled in its turn, and
else all stays. -/
theorem fillOne_cases (k : String) (rules : FieldRules) (items : Option FieldSchema)
    (properties : Option Schema) (fs : Fields) :
    (∃ v, fs.get? k = none ∧ rules.default = some v ∧
      fillOne k (.mk rules items properties) fs = fs.insert k v) ∨
    (∃ nested s, fs.get? k = some (.object nested) ∧ properties = some s ∧
      fillOne k (.mk rules items properties) fs = fs.insert k (.object (s.fill nested))) ∨
    ((fs.get? k = none → rules.default = none) ∧
      fillOne k (.mk rules items properties) fs = fs) := by
  rw [fillOne.eq_def]
  dsimp only
  split
  next hget =>
    cases hdefault : rules.default with
    | some v => exact Or.inl ⟨v, hget, rfl, rfl⟩
    | none => exact Or.inr (Or.inr ⟨fun _ => rfl, rfl⟩)
  next nested s hget => exact Or.inr (Or.inl ⟨nested, s, hget, rfl, rfl⟩)
  next hget _ =>
    refine Or.inr (Or.inr ⟨fun hnone => ?_, rfl⟩)
    rw [hget] at hnone
    cases hnone

mutual

theorem wellFormed_fill : ∀ {s : Schema} {fs : Fields}, s.WellFormed →
    (Value.object fs).WellFormed → (Value.object (s.fill fs)).WellFormed
  | .mk _ fields _ _, _, hs, hfs => wellFormed_fillAll fields hs hfs

theorem wellFormed_fillAll : ∀ (fields : List (String × FieldSchema)) {fs : Fields},
    WellFormedDeclared fields → (Value.object fs).WellFormed →
      (Value.object (fillAll fields fs)).WellFormed
  | [], _, _, hfs => hfs
  | (k, f) :: rest, fs, hfields, hfs => by
    rw [fillAll]
    exact wellFormed_fillAll rest hfields.2 (wellFormed_fillOne k f hfields.1 hfs)

theorem wellFormed_fillOne : ∀ (k : String) (f : FieldSchema) {fs : Fields}, f.WellFormed →
    (Value.object fs).WellFormed → (Value.object (fillOne k f fs)).WellFormed
  | k, .mk rules items none, fs, hf, hfs => by
    rcases fillOne_cases k rules items none fs with
      ⟨v, -, hv, hfill⟩ | ⟨_, _, -, hnone, -⟩ | ⟨-, hfill⟩
    · rw [hfill]; exact Value.wellFormed_insert hfs (hf v hv) k
    · cases hnone
    · rw [hfill]; exact hfs
  -- the schema within is named here and not by the cases, so that it is seen to be a part
  | k, .mk rules items (some s), fs, hf, hfs => by
    rcases fillOne_cases k rules items (some s) fs with
      ⟨v, -, hv, hfill⟩ | ⟨nested, _, hget, ⟨⟩, hfill⟩ | ⟨-, hfill⟩
    · rw [hfill]; exact Value.wellFormed_insert hfs (hf.1 v hv) k
    · have hnested : (Value.object nested).WellFormed := Value.WellFormed.get? hfs.2 hget
      rw [hfill]; exact Value.wellFormed_insert hfs (wellFormed_fill hf.2 hnested) k
    · rw [hfill]; exact hfs

end

/-- What stands in a field after filling in, by what stood there before. -/
def FieldSchema.filled : FieldSchema → Option Value → Option Value
  | mk rules _ _, none => rules.default
  | mk _ _ (some s), some (.object nested) => some (.object (s.fill nested))
  | _, some v => some v

/-- What is filled in is nothing but what the field makes of what stood there. -/
theorem fillOne_eq (k : String) (f : FieldSchema) (fs : Fields) :
    fillOne k f fs = match f.filled (fs.get? k) with
      | some v => fs.insert k v
      | none => fs := by
  obtain ⟨rules, items, properties⟩ := f
  rw [fillOne.eq_def]
  dsimp only
  cases hget : fs.get? k with
  | none => cases hdefault : rules.default <;> simp only [FieldSchema.filled, hdefault]
  | some v =>
    cases properties with
    | none => cases v <;> exact (insert_of_get? hget).symm
    | some s =>
      cases v with
      | object nested => rfl
      | _ => exact (insert_of_get? hget).symm

theorem FieldSchema.filled_eq_none {f : FieldSchema} {o : Option Value} (h : f.filled o = none) :
    o = none := by
  obtain ⟨rules, items, properties⟩ := f
  cases o with
  | none => rfl
  | some v => cases properties <;> cases v <;> cases h

theorem ascending_fillOne {fs : Fields} (h : Ascending fs) (k : String) (f : FieldSchema) :
    Ascending (fillOne k f fs) := by
  rw [fillOne_eq]
  split
  · exact h.insert k _
  · exact h

theorem get?_fillOne {fs : Fields} (h : Ascending fs) (k : String) (f : FieldSchema)
    (name : String) :
    (fillOne k f fs).get? name = if name = k then f.filled (fs.get? k) else fs.get? name := by
  rw [fillOne_eq]
  split
  next v hv =>
    rw [get?_insert h, hv]
    simp only [Std.compare_eq_iff_eq]
  next hnone =>
    split
    next heq => rw [heq, hnone, FieldSchema.filled_eq_none hnone]
    next => rfl

theorem mem_keys_fillOne {fs : Fields} (h : Ascending fs) (k : String) (f : FieldSchema)
    (name : String) :
    name ∈ (fillOne k f fs).keys ↔ name ∈ fs.keys ∨ name = k ∧ f.rules.default.isSome := by
  obtain ⟨rules, items, properties⟩ := f
  rw [mem_keys_iff_get? (ascending_fillOne h k _), mem_keys_iff_get? h, get?_fillOne h]
  by_cases hname : name = k
  · subst hname
    rw [if_pos rfl]
    cases hget : fs.get? name with
    | none => simp [FieldSchema.filled, FieldSchema.rules]
    | some v =>
      have hfilled : ((FieldSchema.mk rules items properties).filled (some v)).isSome := by
        rw [Option.isSome_iff_ne_none]
        intro hnone
        cases FieldSchema.filled_eq_none hnone
      simp [hfilled]
  · simp [hname]

/-- Each field that is declared is filled in by itself. -/
theorem get?_fillAll {fields : List (String × FieldSchema)} (hfields : Ascending fields)
    {fs : Fields} (h : Ascending fs) (name : String) :
    get? name (fillAll fields fs) = match get? name fields with
      | some f => f.filled (get? name fs)
      | none => get? name fs := by
  induction fields generalizing fs with
  | nil => rfl
  | cons e rest ih =>
    obtain ⟨k, f⟩ := e
    obtain ⟨hlt, hrest⟩ := ascending_cons.mp hfields
    rw [fillAll, ih hrest (ascending_fillOne h k f), get?_fillOne h]
    cases hc : compare name k with
    | lt =>
      have hnone : get? name rest = none :=
        get?_eq_none_of_lt fun e he => Std.TransCmp.lt_trans hc (hlt e he)
      have hne : name ≠ k := by
        rintro rfl
        rw [Std.ReflOrd.compare_self] at hc
        cases hc
      simp only [get?, hc, hnone, if_neg hne]
    | eq =>
      obtain rfl := Std.LawfulEqOrd.eq_of_compare hc
      have hnone : get? name rest = none := get?_eq_none_of_lt fun e he => hlt e he
      simp only [get?, hc, hnone, if_true]
    | gt =>
      have hne : name ≠ k := by
        rintro rfl
        rw [Std.ReflOrd.compare_self] at hc
        cases hc
      simp only [get?, hc, if_neg hne]

/-- The fields that are there after the defaults are those that were there before and those
that have one. -/
theorem mem_keys_fillAll {fields : List (String × FieldSchema)} {fs : Fields}
    (hfields : WellFormedDeclared fields) (h : (Value.object fs).WellFormed) (name : String) :
    name ∈ (fillAll fields fs).keys ↔
      name ∈ fs.keys ∨ ∃ f, (name, f) ∈ fields ∧ f.rules.default.isSome := by
  induction fields generalizing fs with
  | nil => simp [fillAll]
  | cons e rest ih =>
    obtain ⟨k, f⟩ := e
    rw [fillAll, ih hfields.2 (wellFormed_fillOne k f hfields.1 h), mem_keys_fillOne h.1, or_assoc]
    refine or_congr_right ⟨?_, ?_⟩
    · rintro (⟨rfl, hf⟩ | ⟨g, hg, hdefault⟩)
      · exact ⟨f, List.mem_cons_self, hf⟩
      · exact ⟨g, List.mem_cons_of_mem _ hg, hdefault⟩
    · rintro ⟨g, hg, hdefault⟩
      rcases List.mem_cons.mp hg with he | hg
      · cases he
        exact Or.inl ⟨rfl, hdefault⟩
      · exact Or.inr ⟨g, hg, hdefault⟩

namespace Schema
variable {s : Schema} {d : Document}

theorem prepare_eq_ok {w : Document} (h : s.prepare d = .ok w) : w = s.applyDefaults d := by
  rw [prepare] at h
  cases hvalidate : s.validate (s.applyDefaults d) with
  | error e => rw [hvalidate] at h; cases h
  | ok _ => rw [hvalidate] at h; cases h; rfl

theorem validate_of_prepare {w : Document} (h : s.prepare d = .ok w) :
    s.validate w = .ok () := by
  have hw := prepare_eq_ok h
  rw [prepare, ← hw] at h
  cases hvalidate : s.validate w with
  | error e => rw [hvalidate] at h; cases h
  | ok _ => rfl

/-- Only the fields are looked at. -/
theorem validate_congr {w : Document} (h : w.fields = d.fields) : s.validate w = s.validate d := by
  simp only [validate, report, h]

theorem prepare_of_validate (h : s.validate (s.applyDefaults d) = .ok ()) :
    s.prepare d = .ok (s.applyDefaults d) := by
  rw [prepare, h]
  rfl

theorem wellFormed_fields_applyDefaults (hs : s.WellFormed)
    (hd : (Value.object d.fields).WellFormed) :
    (Value.object (s.applyDefaults d).fields).WellFormed := wellFormed_fill hs hd

/-- One of the fields with a default has a name of the engine. -/
def FillsReserved (s : Schema) : Prop :=
  ∃ e ∈ s.fields, Document.isReserved e.1 ∧ e.2.rules.default.isSome

/-- Nothing else brings a name of the engine into the fields of a document. -/
theorem wellFormed_applyDefaults_iff (hs : s.WellFormed) (hd : d.WellFormed) :
    (s.applyDefaults d).WellFormed ↔ ¬ s.FillsReserved := by
  have hkeys : ∀ name, name ∈ (s.applyDefaults d).fields.keys ↔
      name ∈ d.fields.keys ∨ ∃ f, (name, f) ∈ s.fields ∧ f.rules.default.isSome := by
    obtain ⟨_, fields, _, _⟩ := s
    exact mem_keys_fillAll hs hd.object
  constructor
  · rintro h ⟨⟨name, f⟩, hf, hreserved, hdefault⟩
    obtain ⟨v, hv⟩ := mem_keys.mp ((hkeys name).mpr (Or.inr ⟨f, hf, hdefault⟩))
    rw [h.unreserved _ hv] at hreserved
    cases hreserved
  · intro h
    have hfields := wellFormed_fields_applyDefaults hs hd.object
    refine ⟨hfields.1, hfields.2, fun e he => ?_⟩
    rcases (hkeys e.1).mp (mem_keys.mpr ⟨e.2, he⟩) with hname | ⟨f, hf, hdefault⟩
    · obtain ⟨v, hv⟩ := mem_keys.mp hname
      exact hd.unreserved (e.1, v) hv
    · by_contra hreserved
      exact h ⟨_, hf, (Bool.not_eq_false _).mp hreserved, hdefault⟩

end Schema

/-- The document with the defaults of the schema, if there is one. -/
def Document.withDefaults (schema : Option Schema) (d : Document) : Document :=
  match schema with
  | some s => s.applyDefaults d
  | none => d

theorem Document.wellFormed_fields_withDefaults {schema : Option Schema}
    (hschema : ∀ s, schema = some s → s.WellFormed) {d : Document} (hd : d.WellFormed) :
    (Value.object (d.withDefaults schema).fields).WellFormed := by
  cases schema with
  | none => exact hd.object
  | some s => exact Schema.wellFormed_fields_applyDefaults (hschema s rfl) hd.object

end DocBase
