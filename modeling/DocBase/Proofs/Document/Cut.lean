import DocBase.Proofs.Value.Place
import DocBase.Proofs.Query.Ordered

/-! Removing at a path takes out what reading at the path gives. The two go their own ways:
reading takes the segments one after another, removing takes the last one apart and looks for it
in what the others lead to. -/
namespace DocBase
open Keyed

namespace Value
variable {leaf s : String} {parents : List String} {v part removed holder : Value} {step : Step}

/-! ## One step -/

/-- The value without the part that is one step into it. -/
def erasePart (v : Value) (step : Step) : Value :=
  match v, step with
  | object fs, .field name => object (Keyed.erase name fs)
  | array xs, .element i => array (xs.eraseIdx i)
  | v, _ => v

theorem into?_array (s : String) (xs : List Value) :
    (array xs).into? s = (element? s xs).map fun e => (.element e.1, e.2) := by
  cases hi : Path.arrayIndex s with
  | none => simp [into?, step?, element?, hi]
  | some i => cases hx : xs[i]? <;> simp [into?, step?, part?, element?, hi, hx]

theorem cut_nil (leaf : String) (v : Value) : cut leaf [] v =
    match v.into? leaf with
    | some (step, part) => (some part, v.erasePart step)
    | none => (none, v) := by
  cases v with
  | object fs =>
    cases hget : Keyed.get? leaf fs with
    | none => simp [cut, into?, step?, part?, hget, erase_of_get?_none hget]
    | some part => simp [cut, into?, step?, part?, hget, erasePart]
  | array xs =>
    rw [cut, into?_array]
    cases element? leaf xs <;> rfl
  | _ => rfl

theorem cut_cons (leaf s : String) (parents : List String) (v : Value) :
    cut leaf (s :: parents) v =
      match v.into? s with
      | some (step, part) => ((cut leaf parents part).1, v.putPart step (cut leaf parents part).2)
      | none => (none, v) := by
  cases v with
  | object fs => cases hget : Keyed.get? s fs <;> simp [cut, into?, step?, part?, hget, putPart]
  | array xs =>
    rw [cut, into?_array]
    cases helement : element? s xs with
    | none => rfl
    | some e =>
      have hi : e.1 ≠ xs.length :=
        (List.getElem?_eq_some_iff.mp (mem_of_element? helement).2).1.ne
      simp [putPart, hi]
  | _ => rfl

/-! ## What is removed -/

theorem cut_fst (leaf : String) (parents : List String) (v : Value) :
    (cut leaf parents v).1 = v.at? (parents ++ [leaf]) := by
  induction parents generalizing v with
  | nil =>
    rw [cut_nil, List.nil_append, at?_cons]
    cases v.into? leaf with
    | none => rfl
    | some e => exact (at?_nil e.2).symm
  | cons s parents ih =>
    rw [cut_cons, List.cons_append, at?_cons]
    cases v.into? s with
    | none => rfl
    | some e => exact ih e.2

/-- Where nothing is removed nothing changes. -/
theorem cut_of_none (h : (cut leaf parents v).1 = none) : (cut leaf parents v).2 = v := by
  induction parents generalizing v with
  | nil =>
    rw [cut_nil] at h ⊢
    cases hinto : v.into? leaf with
    | none => rfl
    | some e => rw [hinto] at h; cases h
  | cons s parents ih =>
    rw [cut_cons] at h ⊢
    cases hinto : v.into? s with
    | none => rfl
    | some e =>
      rw [hinto] at h
      dsimp only at h ⊢
      rw [ih h]
      exact putPart_self (into?_eq_some.mp hinto).2

/-- The second value is the first but for what stands at a place. Outside of it there are the same
places, with values of the same types, and off the way to it the same values. -/
structure ChangedAt (place : Place) (before after : Value) : Prop where
  elsewhere : AgreeOff place before after
  outside : ∀ l, ¬ place <+: l →
    (after.valueAt? l).map typeName = (before.valueAt? l).map typeName

theorem ChangedAt.root (before after : Value) : ChangedAt [] before after where
  elsewhere := fun _ _ h => absurd List.nil_prefix h
  outside := fun _ h => absurd List.nil_prefix h

theorem ChangedAt.putPart {old : Value} {place : Place} (hpart : v.part? step = some old)
    (h : ChangedAt place old part) : ChangedAt (step :: place) v (v.putPart step part) where
  elsewhere := agreeOff_putPart (takes_of_part? hpart) (by rw [hpart]; exact h.elsewhere)
  outside := by
    intro l hl
    cases l with
    | nil => exact congrArg some (typeName_putPart v step part)
    | cons other l =>
      rw [valueAt?, valueAt?]
      by_cases hstep : other = step
      · subst hstep
        rw [part?_putPart_self (takes_of_part? hpart), hpart]
        exact h.outside l fun hl' => hl (List.cons_prefix_cons.mpr ⟨rfl, hl'⟩)
      · rw [part?_putPart_ne (takes_of_part? hpart) part hstep]

/-- What is removed stood one step into a value, and that value alone changes. -/
theorem changedAt_of_cut (h : (cut leaf parents v).1 = some removed) :
    ∃ place step holder, v.place? (parents ++ [leaf]) = some (place ++ [step]) ∧
      v.at? parents = some holder ∧ v.valueAt? place = some holder ∧
      holder.part? step = some removed ∧
      (cut leaf parents v).2.valueAt? place = some (holder.erasePart step) ∧
      ChangedAt place v (cut leaf parents v).2 := by
  induction parents generalizing v with
  | nil =>
    rw [cut_nil] at h ⊢
    cases hinto : v.into? leaf with
    | none => rw [hinto] at h; cases h
    | some e =>
      obtain ⟨step, part⟩ := e
      rw [hinto] at h
      cases h
      refine ⟨[], step, v, ?_, at?_nil v, rfl, (into?_eq_some.mp hinto).2, rfl, .root v _⟩
      rw [List.nil_append, place?, hinto]
      rfl
  | cons s parents ih =>
    rw [cut_cons] at h ⊢
    cases hinto : v.into? s with
    | none => rw [hinto] at h; cases h
    | some e =>
      obtain ⟨step, part⟩ := e
      obtain ⟨hstep, hpart⟩ := into?_eq_some.mp hinto
      rw [hinto] at h
      dsimp only at h ⊢
      obtain ⟨place, last, holder, hplace, hholder, hvalue, hremoved, hafter, hchanged⟩ := ih h
      refine ⟨step :: place, last, holder, ?_, ?_, ?_, hremoved, ?_, hchanged.putPart hpart⟩
      · rw [List.cons_append, place?, hinto, Option.bind_some, hplace]
        rfl
      · rw [at?_cons, hinto]
        exact hholder
      · rw [valueAt?, hpart]
        exact hvalue
      · rw [valueAt?, part?_putPart_self (takes_of_part? hpart)]
        exact hafter

end Value

/-! ## Documents -/
namespace Document

theorem exists_leaf (path : String) : ∃ parents leaf, Path.segments path = parents ++ [leaf] := by
  obtain ⟨s, rest, hsegments⟩ := exists_segments path
  exact ⟨(s :: rest).dropLast, (s :: rest).getLast (List.cons_ne_nil s rest),
    by rw [hsegments, List.dropLast_concat_getLast]⟩

/-- A removal from a document is one from its fields, and from nothing else. -/
theorem cutPath_eq {d after : Document} {path leaf : String} {parents : List String}
    {removed : Option Value} (h : d.cutPath path = (removed, after))
    (hsegments : Path.segments path = parents ++ [leaf]) :
    Value.cut leaf parents (.object d.fields) = (removed, .object after.fields) ∧
      after = { d with fields := after.fields } := by
  obtain ⟨fs, hfs, -⟩ := Value.names_cut leaf parents d.fields
  rw [cutPath, hsegments] at h
  simp only [List.getLast?_concat, List.dropLast_concat, hfs] at h
  cases h
  exact ⟨Prod.ext rfl hfs, rfl⟩

/-- A removal gives what reading gave, and takes just that out. -/
theorem cuts_what_get_reads {d after : Document} (hd : d.Ordered) {path : String}
    {removed : Option Value} (h : d.cutPath path = (removed, after)) :
    removed = d.get? path ∧ (removed = none → after = d) ∧
    ∀ v, removed = some v → after = { d with fields := after.fields } ∧
      ∃ place step, (Value.object d.fields).place? (Path.segments path) = some (place ++ [step]) ∧
        (Value.object d.fields).valueAt? (place ++ [step]) = some v ∧
        (∀ name, step = .field name → ∃ fs fs' : Fields,
          (Value.object d.fields).valueAt? place = some (.object fs) ∧
          (Value.object after.fields).valueAt? place = some (.object fs') ∧
          fs'.get? name = none ∧ ∀ other, other ≠ name → fs'.get? other = fs.get? other) ∧
        (∀ i, step = .element i → ∃ xs,
          (Value.object d.fields).valueAt? place = some (.array xs) ∧
          (Value.object after.fields).valueAt? place = some (.array (xs.eraseIdx i))) ∧
        Value.ChangedAt place (.object d.fields) (.object after.fields) := by
  obtain ⟨parents, leaf, hsegments⟩ := exists_leaf path
  obtain ⟨hcut, hafter⟩ := cutPath_eq h hsegments
  refine ⟨?_, fun hnone => ?_, fun v hv => ⟨hafter, ?_⟩⟩
  · rw [get?, Value.get?, hsegments, ← Value.cut_fst, hcut]
  · have hunchanged := Value.cut_of_none (congrArg Prod.fst hcut |>.trans hnone)
    rw [hcut, Value.object.injEq] at hunchanged
    rw [hafter]
    exact hunchanged ▸ rfl
  · obtain ⟨place, step, holder, hplace, hholder, hvalue, hremoved, hleft, hchanged⟩ :=
      Value.changedAt_of_cut (congrArg Prod.fst hcut |>.trans hv)
    have hordered : holder.WellFormed := Value.wellFormed_at? hd hholder
    rw [hcut] at hleft hchanged
    rw [← hsegments] at hplace
    refine ⟨place, step, hplace, ?_, ?_, ?_, hchanged⟩
    · rw [Value.valueAt?_append, hvalue]
      simp [Value.valueAt?, hremoved]
    · rintro name rfl
      cases holder with
      | object fs =>
        exact ⟨fs, Keyed.erase name fs, hvalue, hleft, get?_erase_self hordered.1 name,
          fun other hother => get?_erase_ne hordered.1 hother⟩
      | _ => cases hremoved
    · rintro i rfl
      cases holder with
      | array xs => exact ⟨xs, hvalue, hleft⟩
      | _ => cases hremoved

/-- The rest of a list closes up behind the element. -/
theorem cuts_what_get_reads_in_list :
    let d : Document := { id := some "x", fields := [("a", .array [.int 1, .int 2, .int 3])] }
    let after : Document := { d with fields := [("a", .array [.int 1, .int 3])] }
    d.Ordered ∧ d.cutPath "a.01" = (some (.int 2), after) ∧ d.get? "a.01" = some (.int 2) ∧
      ∃ place step, Value.ChangedAt place (.object d.fields) (.object after.fields) ∧
        (Value.object d.fields).valueAt? (place ++ [step]) = some (.int 2) := by
  intro d after
  have hd : d.Ordered := by
    simp [d, Ordered, Value.WellFormed, Value.WellFormedFields, Value.WellFormedItems,
      Keyed.Ascending]
  have h : d.cutPath "a.01" = (some (.int 2), after) := rfl
  obtain ⟨hget, -, hcut⟩ := cuts_what_get_reads hd h
  obtain ⟨-, place, step, -, hvalue, -, -, hchanged⟩ := hcut _ rfl
  exact ⟨hd, h, hget.symm, place, step, hchanged, hvalue⟩

end Document
end DocBase
