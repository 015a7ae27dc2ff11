import DocBase.Proofs.Document.Below
import DocBase.Proofs.Schema.Built

/-! What filling in defaults leaves as it is. Of all places in a document only objects change, and
these only by names that were missing: a name comes in with the default that is declared for it, in
the schema of the document or in the one that is nested in it for the object there. No schema is
there for what lies within a list. -/
namespace DocBase
open Keyed Value

/-! ## Schemas for the objects of a document -/

/-- The schema for the objects that the field holds. -/
def FieldSchema.nested? : FieldSchema → Option Schema
  | mk _ _ properties => properties

namespace Schema

/-- The default of a field that is declared under the name. -/
def default? (s : Schema) (name : String) : Option Value :=
  (get? name s.fields).bind (·.rules.default)

/-- The schema for an object at this place. -/
def at? : Schema → Place → Option Schema
  | s, [] => some s
  | s, .field name :: rest => ((get? name s.fields).bind (·.nested?)).bind (·.at? rest)
  | _, .element _ :: _ => none

/-- The value after filling in, by the schema for it if there is one. -/
def filling : Option Schema → Value → Value
  | some s, .object fs => .object (s.fill fs)
  | _, v => v

variable {s : Schema} {fs : Fields} {v : Value} {l : Place}

theorem filling_of_not_object (o : Option Schema) (h : ∀ fs, v ≠ .object fs) :
    filling o v = v := by
  cases o with
  | none => rfl
  | some s =>
    cases v with
    | object fs => exact absurd rfl (h fs)
    | _ => rfl

theorem filled_some (f : FieldSchema) (v : Value) :
    f.filled (some v) = some (filling f.nested? v) := by
  obtain ⟨rules, items, properties⟩ := f
  cases properties <;> cases v <;> rfl

theorem ordered_of_nested? {name : String} {t : Schema} (hs : s.Ordered)
    (ht : (get? name s.fields).bind (·.nested?) = some t) : t.Ordered := by
  obtain ⟨⟨rules, items, properties⟩, hf, hnested⟩ := Option.bind_eq_some_iff.mp ht
  have hordered := (ordered_iff.mp hs).2 _ (mem_of_get? hf)
  exact (FieldSchema.ordered_mk.mp hordered).2 t hnested

theorem ordered_of_at? {t : Schema} (hs : s.Ordered) (ht : s.at? l = some t) : t.Ordered := by
  induction l generalizing s with
  | nil => cases ht; exact hs
  | cons step rest ih =>
    cases step with
    | element i => cases ht
    | field name =>
      obtain ⟨u, hu, ht⟩ := Option.bind_eq_some_iff.mp ht
      exact ih (ordered_of_nested? hs hu) ht

/-! ## One object -/

/-- A field that is there is filled in by its own schema. -/
theorem get?_fill_of_some (hs : s.Ordered) (hfs : Ascending fs) {name : String}
    (hv : get? name fs = some v) :
    get? name (s.fill fs) = some (filling ((get? name s.fields).bind (·.nested?)) v) := by
  obtain ⟨_, fields, _, _⟩ := s
  show get? name (fillAll fields fs) = some (filling ((get? name fields).bind (·.nested?)) v)
  rw [get?_fillAll hs.1 hfs, hv]
  cases get? name fields with
  | none => rfl
  | some f => exact filled_some f v

/-- A field that is missing gets its default. -/
theorem get?_fill_of_none (hs : s.Ordered) (hfs : Ascending fs) {name : String}
    (hnone : get? name fs = none) : get? name (s.fill fs) = s.default? name := by
  obtain ⟨_, fields, _, _⟩ := s
  show get? name (fillAll fields fs) = (get? name fields).bind (·.rules.default)
  rw [get?_fillAll hs.1 hfs, hnone]
  cases get? name fields with
  | none => rfl
  | some f => cases f; rfl

/-! ## All places -/

/-- No schema is there for the parts of anything but an object. -/
theorem filling_at?_of_not_object (s : Schema) {x : Value} (hx : ∀ fs, x ≠ .object fs)
    (hv : x.valueAt? l = some v) : filling (s.at? l) v = v := by
  cases l with
  | nil =>
    cases hv
    exact filling_of_not_object (some s) hx
  | cons step rest =>
    cases step with
    | element i => rfl
    | field name =>
      cases x with
      | object fs => exact absurd rfl (hx fs)
      | _ => cases hv

/-- What stands at a place is filled in by the schema for this place. -/
theorem valueAt?_fill (hs : s.Ordered) (hfs : (Value.object fs).WellFormed)
    (hv : (Value.object fs).valueAt? l = some v) :
    (Value.object (s.fill fs)).valueAt? l = some (filling (s.at? l) v) := by
  induction l generalizing s fs with
  | nil => cases hv; rfl
  | cons step rest ih =>
    cases step with
    | element i => cases hv
    | field name =>
      obtain ⟨x, hx, hv⟩ := Option.bind_eq_some_iff.mp hv
      simp only [part?] at hx
      have hfilled := get?_fill_of_some hs hfs.1 hx
      simp only [valueAt?, part?, hfilled, Option.bind_some, at?]
      cases hu : (get? name s.fields).bind (·.nested?) with
      | none => exact hv
      | some u =>
        by_cases hobject : ∃ nested, x = .object nested
        · obtain ⟨nested, rfl⟩ := hobject
          exact ih (ordered_of_nested? hs hu) (Value.WellFormed.get? hfs.2 hx) hv
        · have hx' : ∀ nested, x ≠ .object nested := fun nested h => hobject ⟨nested, h⟩
          rw [filling_of_not_object (some u) hx', Option.bind_some,
            filling_at?_of_not_object u hx' hv]
          exact hv

/-- What stands at a place where nothing was lies in a default that came in. -/
theorem exists_default_of_valueAt?_fill (hs : s.Ordered) (hfs : (Value.object fs).WellFormed)
    (hnone : (Value.object fs).valueAt? l = none)
    (hv : (Value.object (s.fill fs)).valueAt? l = some v) :
    ∃ above name below nested t default, l = above ++ .field name :: below ∧
      (Value.object fs).valueAt? above = some (.object nested) ∧ get? name nested = none ∧
      s.at? above = some t ∧ t.default? name = some default ∧
      default.valueAt? below = some v := by
  induction l generalizing s fs with
  | nil => cases hnone
  | cons step rest ih =>
    cases step with
    | element i => cases hv
    | field name =>
      obtain ⟨y, hy, hv⟩ := Option.bind_eq_some_iff.mp hv
      simp only [part?] at hy
      cases hx : get? name fs with
      | none =>
        rw [get?_fill_of_none hs hfs.1 hx] at hy
        exact ⟨[], name, rest, fs, s, y, rfl, rfl, hx, rfl, hy, hv⟩
      | some x =>
        have hrest : x.valueAt? rest = none := by
          simpa only [valueAt?, part?, hx, Option.bind_some] using hnone
        rw [get?_fill_of_some hs hfs.1 hx] at hy
        cases hy
        cases hu : (get? name s.fields).bind (·.nested?) with
        | none =>
          simp only [hu, filling, hrest] at hv
          cases hv
        | some u =>
          rw [hu] at hv
          by_cases hobject : ∃ nested, x = .object nested
          · obtain ⟨nested, rfl⟩ := hobject
            obtain ⟨above, name', below, inner, t, default, rfl, habove, hinner, ht, hdefault,
              hbelow⟩ := ih (ordered_of_nested? hs hu) (Value.WellFormed.get? hfs.2 hx) hrest hv
            refine ⟨.field name :: above, name', below, inner, t, default, rfl, ?_, hinner, ?_,
              hdefault, hbelow⟩
            · simpa only [valueAt?, part?, hx, Option.bind_some] using habove
            · simpa only [at?, hu, Option.bind_some] using ht
          · rw [filling_of_not_object (some u) fun nested h => hobject ⟨nested, h⟩, hrest] at hv
            cases hv

/-! ## What is added -/

/-- The fields after filling in, place by place. -/
structure OnlyAdds (s : Schema) (before after : Fields) : Prop where
  /-- What is no object stays. -/
  keeps : ∀ l v, (Value.object before).valueAt? l = some v → (∀ fs, v ≠ .object fs) →
    (Value.object after).valueAt? l = some v
  /-- All that lies within a list stays. -/
  lists : ∀ l items below, (Value.object before).valueAt? l = some (.array items) →
    (Value.object after).valueAt? (l ++ below) = (Value.object before).valueAt? (l ++ below)
  /-- An object keeps its names, and the others that it gets are those that the schema for it
  declares with a default, which stands there then. -/
  objects : ∀ (l : Place) (fs : Fields), (Value.object before).valueAt? l = some (.object fs) →
    ∃ gs : Fields, (Value.object after).valueAt? l = some (.object gs) ∧ fs.keys ⊆ gs.keys ∧
      ∀ name ∉ fs.keys, ∀ v, get? name gs = some v ↔
        ∃ t, s.at? l = some t ∧ t.default? name = some v
  /-- Nothing else comes in. -/
  nothingElse : ∀ l v, (Value.object after).valueAt? l = some v →
    (Value.object before).valueAt? l = none →
    ∃ (above : Place) (name : String) (below : Place) (fs : Fields) (t : Schema)
      (default : Value), l = above ++ .field name :: below ∧
      (Value.object before).valueAt? above = some (.object fs) ∧ name ∉ fs.keys ∧
      s.at? above = some t ∧ t.default? name = some default ∧
      default.valueAt? below = some v

theorem wellFormed_of_valueAt? {w : Value} (hv : v.WellFormed) (hw : v.valueAt? l = some w) :
    w.WellFormed := by
  induction l generalizing v with
  | nil => cases hw; exact hv
  | cons step rest ih =>
    obtain ⟨part, hpart, hrest⟩ := Option.bind_eq_some_iff.mp hw
    exact ih (Value.wellFormed_of_part? hv hpart) hrest

theorem not_mem_keys_iff (h : Ascending fs) {name : String} :
    name ∉ fs.keys ↔ get? name fs = none := by
  rw [mem_keys_iff_get? h, Bool.not_eq_true, Option.isSome_eq_false_iff, Option.isNone_iff_eq_none]

/-- The object that one becomes by filling in. -/
theorem object_of_filling (o : Option Schema) (ho : ∀ t, o = some t → t.Ordered)
    (hfs : Ascending fs) : ∃ gs : Fields, filling o (.object fs) = .object gs ∧ fs.keys ⊆ gs.keys ∧
      ∀ name ∉ fs.keys, ∀ v, get? name gs = some v ↔
        ∃ t, o = some t ∧ t.default? name = some v := by
  cases o with
  | none =>
    refine ⟨fs, rfl, List.Subset.refl _, fun name hname v => ?_⟩
    rw [(not_mem_keys_iff hfs).mp hname]
    simp
  | some t =>
    refine ⟨t.fill fs, rfl, fun name hname => ?_, fun name hname v => ?_⟩
    · rw [mem_keys_iff_get? hfs, Option.isSome_iff_exists] at hname
      obtain ⟨v, hv⟩ := hname
      exact mem_keys_of_get? (get?_fill_of_some (ho t rfl) hfs hv)
    · rw [get?_fill_of_none (ho t rfl) hfs ((not_mem_keys_iff hfs).mp hname)]
      simp

theorem onlyAdds_fill (hs : s.Ordered) (hfs : (Value.object fs).WellFormed) :
    s.OnlyAdds fs (s.fill fs) where
  keeps := by
    intro l v hv hscalar
    rw [valueAt?_fill hs hfs hv, filling_of_not_object _ hscalar]
  lists := by
    intro l items below hv
    have hafter := valueAt?_fill hs hfs hv
    rw [filling_of_not_object _ fun _ => Value.noConfusion] at hafter
    rw [valueAt?_append, valueAt?_append, hv, hafter]
  objects := by
    intro l nested hv
    rw [valueAt?_fill hs hfs hv]
    have hnested : Ascending nested := (wellFormed_of_valueAt? hfs hv).1
    obtain ⟨gs, hgs, hkeys, hadded⟩ :=
      object_of_filling (s.at? l) (fun t ht => ordered_of_at? hs ht) hnested
    exact ⟨gs, congrArg some hgs, hkeys, hadded⟩
  nothingElse := by
    intro l v hv hnone
    obtain ⟨above, name, below, nested, t, default, hl, habove, hmissing, ht, hdefault, hbelow⟩ :=
      exists_default_of_valueAt?_fill hs hfs hnone hv
    have hnested : Ascending nested := (wellFormed_of_valueAt? hfs habove).1
    exact ⟨above, name, below, nested, t, default, hl, habove,
      (not_mem_keys_iff hnested).mpr hmissing, ht, hdefault, hbelow⟩

/-- Filling in leaves alone what the engine assigns, and all else but what is missing from the
objects of the document: there it adds exactly the declared defaults. -/
theorem applyDefaults_only_adds (hs : s.Ordered) {d : Document}
    (hd : (Value.object d.fields).WellFormed) :
    (s.applyDefaults d).id = d.id ∧ (s.applyDefaults d).createdAt = d.createdAt ∧
      (s.applyDefaults d).updatedAt = d.updatedAt ∧
      s.OnlyAdds d.fields (s.applyDefaults d).fields :=
  ⟨rfl, rfl, rfl, onlyAdds_fill hs hd⟩

/-- A null and a list of objects where objects with defaults are declared, an object from which
one is missing, and a name that is declared without a default. -/
theorem applyDefaults_only_adds_within_objects :
    let inner := ((Schema.named "p").field "b" ((FieldSchema.ofType .int).default (.int 1))).field
      "c" (FieldSchema.ofType .int)
    let s := (((Schema.named "s").field "l" (.arrayOf (.objectOf inner))).field
      "n" (.objectOf inner)).field "o" (.objectOf inner)
    let d : Document :=
      { id := some "x"
        fields := [("l", .array [.object []]), ("n", .null), ("o", .object [("z", .null)])] }
    s.OnlyAdds d.fields (s.applyDefaults d).fields ∧
      (s.applyDefaults d).fields = [("l", .array [.object []]), ("n", .null),
        ("o", .object [("b", .int 1), ("z", .null)])] := by
  intro inner s d
  have hone : (Value.int 1).WellFormed := trivial
  have hinner : inner.Built :=
    .field (.field (.named "p") "b" (.default (.ofType .int) hone)) "c" (.ofType .int)
  have hs : s.Built :=
    .field (.field (.field (.named "s") "l" (.arrayOf (.objectOf hinner))) "n" (.objectOf hinner))
      "o" (.objectOf hinner)
  have hd : (Value.object d.fields).WellFormed := by
    refine ⟨?_, ⟨⟨ascending_nil, trivial⟩, trivial⟩, trivial, ⟨?_, trivial, trivial⟩, trivial⟩
    · unfold Ascending
      decide +kernel
    · exact List.pairwise_singleton _ _
  exact ⟨(applyDefaults_only_adds hs.sound.1 hd).2.2.2, rfl⟩

end Schema
end DocBase
