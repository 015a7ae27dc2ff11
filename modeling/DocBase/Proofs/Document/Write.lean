import DocBase.Proofs.Value.Place
import DocBase.Proofs.Document.Edit

/-! A write at a path goes down in place and makes what is missing before it knows the rest of the
path. Still it is all or nothing: only what was there before can refuse it, and once it has made
an object it is in objects of its own. A write that succeeds changes one place. -/
namespace DocBase
open Keyed

namespace Value
variable {path s : String} {front rest seen : List String} {v new part : Value} {step : Step}

/-! ## One step -/

/-- What stands at the end of `front` cannot be gone into by the next segment: it has no parts,
or it is a list and the segment is no index up to its length. -/
inductive Refuses (path : String) (front : List String) (s : String) : Value → PathError → Prop
  | scalar {v : Value} (hobject : ∀ fs, v ≠ object fs) (harray : ∀ xs, v ≠ array xs) :
      Refuses path front s v (.notContainer path (Path.join front) v.typeName)
  | noSlot {xs : List Value} (h : ∀ i, Path.arrayIndex s = some i → xs.length < i) :
      Refuses path front s (array xs) (.invalidIndex path (Path.join front))

theorem takes_or_refuses (path : String) (front : List String) (s : String) (v : Value) :
    (∃ step, v.step? s = some step ∧ v.Takes step) ∨ ∃ e, v.Refuses path front s e := by
  cases v with
  | object fs => exact Or.inl ⟨.field s, rfl, .field fs s⟩
  | array xs =>
    cases hi : Path.arrayIndex s with
    | none => exact Or.inr ⟨_, .noSlot fun i h => by rw [hi] at h; cases h⟩
    | some i =>
      rcases Nat.lt_or_ge xs.length i with hlt | hle
      · exact Or.inr ⟨_, .noSlot fun j h => by rw [hi] at h; cases h; exact hlt⟩
      · exact Or.inl ⟨.element i, by rw [step?, hi]; rfl, .element hle⟩
  | _ => exact Or.inr ⟨_, .scalar (by simp) (by simp)⟩

theorem write_of_refuses {e : PathError} (h : v.Refuses path seen s e) :
    write path new (s :: rest) seen v = (.error e, v) := by
  cases h with
  | scalar hobject harray =>
    cases v with
    | object fs => exact absurd rfl (hobject fs)
    | array xs => exact absurd rfl (harray xs)
    | _ => rfl
  | @noSlot xs hslot =>
    have hnone : (Path.arrayIndex s).filter (· ≤ xs.length) = none := by
      rw [Option.filter_eq_none_iff]
      intro i hi
      simpa using hslot i hi
    rw [write, hnone]

/-- Where a step can be taken, the rest of the path is written into the part there, or into a new
object, and whatever becomes of that part is put in. -/
theorem write_of_takes (hstep : v.step? s = some step) (htakes : v.Takes step) :
    write path new (s :: rest) seen v =
      ((write path new rest (seen ++ [s]) ((v.part? step).getD (object []))).1,
        v.putPart step
          (write path new rest (seen ++ [s]) ((v.part? step).getD (object []))).2) := by
  cases htakes with
  | field fs name =>
    cases hstep
    rfl
  | @element xs i hle =>
    obtain ⟨j, hj, hji⟩ := Option.map_eq_some_iff.mp hstep
    cases hji
    have hslot : (Path.arrayIndex s).filter (· ≤ xs.length) = some i := by
      rw [hj, Option.filter_some_pos]; simpa using hle
    rw [write, hslot]
    simp only [part?, putPart]
    by_cases hend : i = xs.length
    · simp [hend]
    · simp [hend]

/-- An object without entries refuses nothing. -/
theorem write_empty (path : String) (new : Value) (rest seen : List String) :
    (write path new rest seen (object [])).1 = .ok () := by
  induction rest generalizing seen with
  | nil => rfl
  | cons s rest ih => exact ih (seen ++ [s])

/-! ## Refusal -/

theorem Refuses.unique {e e' : PathError} (h : v.Refuses path front s e)
    (h' : v.Refuses path front s e') : e = e' := by
  cases h with
  | scalar hobject harray =>
    cases h' with
    | scalar _ _ => rfl
    | noSlot _ => exact absurd rfl (harray _)
  | noSlot _ =>
    cases h' with
    | scalar _ harray => exact absurd rfl (harray _)
    | noSlot _ => rfl

theorem Refuses.into? {e : PathError} (h : v.Refuses path front s e) : v.into? s = none := by
  cases h with
  | scalar hobject harray =>
    cases v with
    | object fs => exact absurd rfl (hobject fs)
    | array xs => exact absurd rfl (harray xs)
    | _ => rfl
  | @noSlot xs hslot =>
    cases hi : Path.arrayIndex s with
    | none => rw [Value.into?, step?, hi]; rfl
    | some i =>
      have hget : xs[i]? = none := List.getElem?_eq_none (hslot i hi).le
      simp [Value.into?, step?, part?, hi, hget]

theorem not_refuses_of_takes (hstep : v.step? s = some step) (htakes : v.Takes step)
    {e : PathError} : ¬ v.Refuses path front s e := by
  intro h
  cases htakes with
  | field fs name =>
    cases h with
    | scalar hobject _ => exact hobject fs rfl
  | @element xs i hle =>
    cases h with
    | scalar _ harray => exact harray xs rfl
    | noSlot hslot =>
      obtain ⟨j, hj, hji⟩ := Option.map_eq_some_iff.mp hstep
      cases hji
      exact absurd (hslot i hj) hle.not_gt

/-- A write is refused here, or by a part that was there before. -/
theorem write_cons_eq_error_iff {e : PathError} :
    (write path new (s :: rest) seen v).1 = .error e ↔ v.Refuses path seen s e ∨
      ∃ step part, v.into? s = some (step, part) ∧
        (write path new rest (seen ++ [s]) part).1 = .error e := by
  rcases takes_or_refuses path seen s v with ⟨step, hstep, htakes⟩ | ⟨e', hrefuses⟩
  · rw [write_of_takes hstep htakes, or_iff_right (not_refuses_of_takes hstep htakes)]
    cases hpart : v.part? step with
    | none =>
      -- Only a new object would be gone into.
      rw [Option.getD_none, write_empty]
      constructor
      · intro h
        cases h
      rintro ⟨step', part, hinto, -⟩
      obtain ⟨hstep', hpart'⟩ := into?_eq_some.mp hinto
      rw [hstep] at hstep'
      cases hstep'
      rw [hpart] at hpart'
      cases hpart'
    | some part =>
      rw [Value.into?, hstep, Option.bind_eq_bind, Option.bind_some, hpart]
      simp
  · rw [write_of_refuses hrefuses, hrefuses.into?]
    constructor
    · intro h
      cases h
      exact Or.inl hrefuses
    · rintro (h | ⟨_, _, h, -⟩)
      · rw [hrefuses.unique h]
      · cases h

/-- A write is refused by the value at which the path stops leading on, and for no other cause. -/
theorem write_eq_error_iff {e : PathError} : (write path new rest seen v).1 = .error e ↔
    ∃ front s after w, rest = front ++ s :: after ∧ v.at? front = some w ∧
      w.Refuses path (seen ++ front) s e := by
  induction rest generalizing seen v with
  | nil => simp [write]
  | cons s rest ih =>
    rw [write_cons_eq_error_iff]
    constructor
    · rintro (hrefuses | ⟨step, part, hinto, herror⟩)
      · exact ⟨[], s, rest, v, rfl, at?_nil v, by simpa using hrefuses⟩
      · obtain ⟨front, s', after, w, rfl, hw, hrefuses⟩ := ih.mp herror
        refine ⟨s :: front, s', after, w, rfl, ?_, by simpa using hrefuses⟩
        rw [at?_cons, hinto]
        exact hw
    · rintro ⟨front, s', after, w, hfront, hw, hrefuses⟩
      cases front with
      | nil =>
        cases hfront
        rw [at?_nil] at hw
        cases hw
        exact Or.inl (by simpa using hrefuses)
      | cons t front =>
        cases hfront
        rw [at?_cons] at hw
        obtain ⟨⟨step, part⟩, hinto, hw⟩ := Option.bind_eq_some_iff.mp hw
        exact Or.inr ⟨step, part, hinto,
          ih.mpr ⟨front, s', after, w, rfl, hw, by simpa using hrefuses⟩⟩

/-- What is made on the way is never left behind by a write that is refused. -/
theorem write_error {e : PathError} (h : (write path new rest seen v).1 = .error e) :
    (write path new rest seen v).2 = v := by
  induction rest generalizing seen v with
  | nil => cases h
  | cons s rest ih =>
    rcases takes_or_refuses path seen s v with ⟨step, hstep, htakes⟩ | ⟨e', hrefuses⟩
    · rw [write_of_takes hstep htakes] at h ⊢
      cases hpart : v.part? step with
      | none =>
        rw [hpart, Option.getD_none, write_empty] at h
        cases h
      | some part =>
        rw [hpart, Option.getD_some] at h
        rw [Option.getD_some, ih h]
        exact putPart_self hpart
    · rw [write_of_refuses hrefuses]

/-! ## Success -/

/-- The second value is the first with another one at the place: that is there, all that is
neither on the way to the place nor below it is as it was, and of what is on the way nothing goes
or becomes something else. In lists the elements stay where they are. -/
structure Written (place : Place) (new before after : Value) : Prop where
  value : after.valueAt? place = some new
  elsewhere : AgreeOff place before after
  kept : ∀ l old, ¬ place <+: l → before.valueAt? l = some old →
    ∃ now, after.valueAt? l = some now ∧ now.typeName = old.typeName
  elements : ∀ l xs, ¬ place <+: l → before.valueAt? l = some (array xs) →
    ∃ ys, after.valueAt? l = some (array ys) ∧ xs.length ≤ ys.length ∧
      ∀ i < xs.length, ¬ l ++ [.element i] <+: place → ys[i]? = xs[i]?

namespace Written
variable {place : Place} {before after : Value}

theorem refl (new before : Value) : Written [] new before new where
  value := rfl
  elsewhere := fun _ _ h => absurd List.nil_prefix h
  kept := fun _ _ h => absurd List.nil_prefix h
  elements := fun _ _ h => absurd List.nil_prefix h

/-- What stood one step in stands in the part that was there, or in one that is still there. -/
theorem cases_of_valueAt?_cons {l : Place} {other : Step} {old : Value} (htakes : v.Takes step)
    (hold : v.valueAt? (other :: l) = some old) (part : Value) :
    (other = step ∧ ((v.part? step).getD (object [])).valueAt? l = some old ∧
        (v.putPart step part).valueAt? (other :: l) = part.valueAt? l) ∨
      (v.putPart step part).valueAt? (other :: l) = some old := by
  rw [valueAt?] at hold ⊢
  obtain ⟨old', hpart, hold⟩ := Option.bind_eq_some_iff.mp hold
  by_cases hstep : other = step
  · subst hstep
    rw [part?_putPart_self htakes, hpart]
    exact .inl ⟨rfl, hold, rfl⟩
  · rw [part?_putPart_ne htakes part hstep, hpart]
    exact .inr hold

/-- One step further out. A part that was missing counts as an empty object. -/
theorem putPart (htakes : v.Takes step)
    (h : Written place new ((v.part? step).getD (object [])) part) :
    Written (step :: place) new v (v.putPart step part) where
  value := by rw [valueAt?, part?_putPart_self htakes]; exact h.value
  elsewhere := agreeOff_putPart htakes h.elsewhere
  kept := by
    intro l old hl hold
    cases l with
    | nil =>
      cases hold
      exact ⟨_, rfl, typeName_putPart v step part⟩
    | cons other l =>
      rcases cases_of_valueAt?_cons htakes hold part with ⟨rfl, hbelow, hnow⟩ | hnow
      · rw [hnow]
        exact h.kept l old (fun hl' => hl (List.cons_prefix_cons.mpr ⟨rfl, hl'⟩)) hbelow
      · exact ⟨old, hnow, rfl⟩
  elements := by
    intro l xs hl hold
    cases l with
    | nil =>
      cases hold
      obtain ⟨ys, hys, hlength, hsame⟩ := elements_putPart htakes part
      refine ⟨ys, congrArg some hys, hlength, fun i hi hother => hsame i hi ?_⟩
      rintro rfl
      exact hother (List.cons_prefix_cons.mpr ⟨rfl, List.nil_prefix⟩)
    | cons other l =>
      rcases cases_of_valueAt?_cons htakes hold part with ⟨rfl, hbelow, hnow⟩ | hnow
      · obtain ⟨ys, hys, hlength, hsame⟩ :=
          h.elements l xs (fun hl' => hl (List.cons_prefix_cons.mpr ⟨rfl, hl'⟩)) hbelow
        refine ⟨ys, hnow.trans hys, hlength, fun i hi hother => hsame i hi fun hl' => hother ?_⟩
        exact List.cons_prefix_cons.mpr ⟨rfl, hl'⟩
      · exact ⟨xs, hnow, le_rfl, fun _ _ _ => rfl⟩

/-- A place that is new is on the way to the one written, or below it. -/
theorem fresh (h : Written place new before after) {l : Place}
    (hbefore : before.valueAt? l = none) (hafter : after.valueAt? l ≠ none) :
    l <+: place ∨ place <+: l := by
  by_contra hneither
  rw [not_or] at hneither
  exact hafter (by rw [h.elsewhere l hneither.1 hneither.2, hbefore])

end Written

/-- A write that succeeds changes the place that its path leads to afterwards. -/
theorem written_of_write (h : (write path new rest seen v).1 = .ok ()) :
    ∃ place, (write path new rest seen v).2.place? rest = some place ∧
      Written place new v (write path new rest seen v).2 := by
  induction rest generalizing seen v with
  | nil => exact ⟨[], rfl, .refl new v⟩
  | cons s rest ih =>
    rcases takes_or_refuses path seen s v with ⟨step, hstep, htakes⟩ | ⟨e, hrefuses⟩
    · rw [write_of_takes hstep htakes] at h ⊢
      obtain ⟨place, hplace, hwritten⟩ := ih h
      refine ⟨step :: place, ?_, hwritten.putPart htakes⟩
      rw [place?, into?_putPart hstep htakes, Option.bind_some, hplace]
      rfl
    · rw [write_of_refuses hrefuses] at h
      cases h

end Value

/-! ## Documents -/
namespace Document

/-- A write of a document is one of its fields, and of nothing else. -/
theorem writePath_eq {d after : Document} {path : String} {v : Value}
    {outcome : Except PathError Unit} (h : d.writePath path v = (outcome, after)) :
    Value.write path v (Path.segments path) [] (.object d.fields) = (outcome, .object after.fields) ∧
      after = { d with fields := after.fields } := by
  obtain ⟨s, rest, hsegments⟩ := exists_segments path
  rw [hsegments]
  rw [writePath, hsegments] at h
  cases h
  exact ⟨rfl, rfl⟩

/-- A write changes one place of a document or nothing. It is refused by the value at which the
path stops leading on: one without parts, or a list that the next segment is no index of. -/
theorem writes_one_place_or_none {d after : Document} {path : String} {v : Value}
    {outcome : Except PathError Unit} (h : d.writePath path v = (outcome, after)) :
    (∀ e, outcome = .error e → after = d) ∧
    (outcome = .ok () → after.get? path = some v ∧ after = { d with fields := after.fields } ∧
      ∃ place, (Value.object after.fields).place? (Path.segments path) = some place ∧
        Value.Written place v (.object d.fields) (.object after.fields) ∧
        ∀ l, (Value.object d.fields).valueAt? l = none →
          (Value.object after.fields).valueAt? l ≠ none → l <+: place ∨ place <+: l) ∧
    ∀ e, outcome = .error e ↔ ∃ front s rest w, Path.segments path = front ++ s :: rest ∧
      (Value.object d.fields).at? front = some w ∧ w.Refuses path front s e := by
  obtain ⟨hwrite, hafter⟩ := writePath_eq h
  refine ⟨fun e he => ?_, fun hok => ?_, fun e => ?_⟩
  · have hunchanged := Value.write_error (congrArg Prod.fst hwrite |>.trans he)
    rw [hwrite, Value.object.injEq] at hunchanged
    rw [hafter]
    exact hunchanged ▸ rfl
  · obtain ⟨place, hplace, hwritten⟩ :=
      Value.written_of_write (congrArg Prod.fst hwrite |>.trans hok)
    rw [hwrite] at hplace hwritten
    refine ⟨?_, hafter, place, hplace, hwritten, fun l => hwritten.fresh⟩
    rw [get?, Value.get?, Value.at?_eq_valueAt?, hplace]
    exact hwritten.value
  · have hiff : (Value.write path v (Path.segments path) [] (.object d.fields)).1 = .error e ↔ _ :=
      Value.write_eq_error_iff
    rw [hwrite] at hiff
    exact hiff

/-- A list of one element takes a new object after it, under an index that is written with a sign. -/
theorem writes_one_place_of_appended :
    let d : Document := { id := some "x", fields := [("a", .array [.object [("b", .int 1)]])] }
    let after : Document := { d with fields :=
      [("a", .array [.object [("b", .int 1)], .object [("c", .int 2)]])] }
    d.writePath "a.+1.c" (.int 2) = (.ok (), after) ∧ after.get? "a.+1.c" = some (.int 2) ∧
      ∃ place, (Value.object after.fields).place? (Path.segments "a.+1.c") = some place ∧
        Value.Written place (.int 2) (.object d.fields) (.object after.fields) := by
  intro d after
  have h : d.writePath "a.+1.c" (.int 2) = (.ok (), after) := rfl
  obtain ⟨hget, -, place, hplace, hwritten, -⟩ := (writes_one_place_or_none h).2.1 rfl
  exact ⟨h, hget, place, hplace, hwritten⟩

end Document
end DocBase
