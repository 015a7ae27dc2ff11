import DocBase.Proofs.Collection.Outcome
import DocBase.Proofs.Schema.Equality

/-! Which schema a collection goes by once one was attached. One that counts as the same as the
schema in force is taken for that schema, and is not put in its place. -/
namespace DocBase.Collection
open Keyed
variable {σ : Type} [RecordStore σ] {c c' : Collection σ}

theorem attachSchema_of_same {s : Option Schema} (h : sameSchema c.schema s) :
    attachSchema s c = (.ok (), c) := by
  rw [attachSchema, get_bind, if_pos h]
  rfl

/-- Nothing but the schema is ever changed, and that only where there are no documents. -/
theorem cases_of_attachSchema {s : Option Schema} (h : attachSchema s c = (.ok (), c')) :
    sameSchema c.schema s ∧ c' = c ∨ c.isEmpty = .ok true ∧ c' = { c with schema := s } := by
  by_cases hsame : sameSchema c.schema s
  · rw [attachSchema_of_same hsame] at h
    cases h
    exact Or.inl ⟨hsame, rfl⟩
  · refine Or.inr ?_
    rw [attachSchema, get_bind, if_neg hsame] at h
    cases hempty : c.isEmpty with
    | error e =>
      rw [hempty] at h
      cases h
    | ok empty =>
      rw [hempty] at h
      cases empty <;> cases h
      exact ⟨rfl, rfl⟩

/-- What is accepted is in force, or a schema stays in force that counts as the same. That one
finds fault with the same documents for the same reasons, where a limit of zero may be spoken of
with another sign. It fills in the same if and only if it has the same defaults, a whole number
being another than the floating-point number of its size. With the same defaults documents are
prepared alike, and with the same bits for limits the errors are the same to the letter. -/
theorem schema_of_attachSchema {s : Schema} (hc : ∀ t, c.schema = some t → t.Ordered)
    (h : attachSchema (some s) c = (.ok (), c')) :
    ∃ t, c'.schema = some t ∧ (t = s ∨ c' = c ∧ t.same s) ∧ t.StandsFor s := by
  rcases cases_of_attachSchema h with ⟨hsame, rfl⟩ | ⟨-, rfl⟩
  · cases hschema : c'.schema with
    | none =>
      rw [hschema] at hsame
      cases hsame
    | some t =>
      rw [hschema] at hsame
      exact ⟨t, rfl, Or.inr ⟨rfl, hsame⟩, Schema.standsFor_of_same hsame (hc t hschema)⟩
  · exact ⟨s, rfl, Or.inl rfl, s.standsFor_self⟩

/-- One field of floating-point numbers, with a default that is put down as it may be. -/
def defaulting (default : Value) : Schema :=
  (Schema.named "").field "x" ((FieldSchema.ofType .float).default default)

theorem report_defaulting (default v : Value) :
    (defaulting default).report { id := some "a", fields := [("x", v)] } =
      if FieldType.float.admits v then [] else [.typeMismatch "x" "float" v.typeName] := by
  let field : FieldSchema := .mk { types := [.float], default := some default } none none
  have hnames : checkNames [("x", field.check)] [] false "" [("x", v)] = field.check "x" v := by
    simp [checkNames, Keyed.keys, Keyed.get?, joinPath, sortedNames, Keyed.insert]
  have hreport : (defaulting default).report { id := some "a", fields := [("x", v)] } =
      checkNames [("x", field.check)] [] false "" [("x", v)] := rfl
  rw [hreport, hnames, FieldSchema.check]
  cases v <;> rfl

/-- A whole default is refused by the very field that it stands for. To attach the schema with
the default that was meant is answered with success, and changes nothing. -/
theorem schema_of_attachSchema_of_whole_default :
    let one : Binary64 := ⟨0x3FF0000000000000⟩
    let c : Collection MemoryStore :=
      { name := "a", store := {}, schema := some (defaulting (.int 1)) }
    let d : Document := { id := some "a" }
    attachSchema (some (defaulting (.float one))) c = (.ok (), c) ∧
      (∃ t, c.schema = some t ∧ ¬ t.SameDefaults (defaulting (.float one)) ∧
        ∃ d, t.applyDefaults d ≠ (defaulting (.float one)).applyDefaults d) ∧
      c.fitSchema d = .error (.validation (.typeMismatch "x" "float" "int")) ∧
      (defaulting (.float one)).prepare d = .ok { d with fields := [("x", .float one)] } := by
  intro one c d
  have hsame : sameSchema c.schema (some (defaulting (.float one))) := by decide +kernel
  have hok := attachSchema_of_same hsame
  have hordered : ∀ t, c.schema = some t → t.Ordered := by
    rintro t ⟨⟩
    exact ⟨List.pairwise_singleton _ _, ⟨trivial, trivial⟩, trivial⟩
  obtain ⟨t, ht, -, hstands⟩ := schema_of_attachSchema hordered hok
  cases ht
  have hdefaults : ¬ (defaulting (.int 1)).SameDefaults (defaulting (.float one)) := by
    rintro ⟨⟨hdefault, -⟩, -⟩
    cases hdefault
  have hprepare : ∀ v : Value, (defaulting v).prepare d =
      (defaulting v).validate { id := some "a", fields := [("x", v)] } >>= fun _ =>
        pure { id := some "a", fields := [("x", v)] } := fun _ => rfl
  refine ⟨hok, ⟨_, rfl, hdefaults, ?_⟩, ?_, ?_⟩
  · by_contra hnone
    exact hdefaults (hstands.fill.mp fun d => by_contra fun hd => hnone ⟨d, hd⟩)
  · change ((defaulting (.int 1)).prepare d).mapError CollectionError.validation = _
    rw [hprepare, Schema.validate, report_defaulting]
    rfl
  · rw [hprepare, Schema.validate, report_defaulting]
    rfl

end DocBase.Collection
