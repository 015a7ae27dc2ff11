import DocBase.Proofs.Document.Cut
import DocBase.Proofs.Document.Write

/-! Edits below a place. A path that goes on from where another one ends changes only what stands
there, and changes it as the rest of the path does on its own. -/
namespace DocBase
open Keyed

namespace Value

/-- The value with another one at a place. -/
def putAt (v : Value) (place : Place) (new : Value) : Value :=
  match place with
  | [] => new
  | step :: rest =>
    match v.part? step with
    | some part => v.putPart step (part.putAt rest new)
    | none => v

section
variable {v part old new a b : Value} {step : Step} {place : Place} {path s : String}
  {front more rest seen : List String}

theorem putAt_cons (hpart : v.part? step = some part) (rest : Place) (new : Value) :
    v.putAt (step :: rest) new = v.putPart step (part.putAt rest new) := by
  rw [putAt, hpart]

theorem part?_putAt (hpart : v.part? step = some part) (rest : Place) (new : Value) :
    (v.putAt (step :: rest) new).part? step = some (part.putAt rest new) := by
  rw [putAt_cons hpart, part?_putPart_self (takes_of_part? hpart)]

theorem valueAt?_putAt (h : v.valueAt? place = some old) (new : Value) :
    (v.putAt place new).valueAt? place = some new := by
  induction place generalizing v with
  | nil => rfl
  | cons step rest ih =>
    obtain ⟨part, hpart, hrest⟩ := Option.bind_eq_some_iff.mp h
    rw [valueAt?, part?_putAt hpart]
    exact ih hrest

theorem putAt_self (h : v.valueAt? place = some old) : v.putAt place old = v := by
  induction place generalizing v with
  | nil => exact (Option.some.inj h).symm
  | cons step rest ih =>
    obtain ⟨part, hpart, hrest⟩ := Option.bind_eq_some_iff.mp h
    rw [putAt_cons hpart, ih hrest, putPart_self hpart]

theorem putPart_putPart (hpart : v.part? step = some part) (a b : Value) :
    (v.putPart step a).putPart step b = v.putPart step b := by
  cases hasPart_of_part? hpart with
  | @field fs name _ => exact congrArg object (insert_insert name a b fs)
  | @element xs i _ hx =>
    have hi : i ≠ xs.length := (List.getElem?_eq_some_iff.mp hx).1.ne
    simp [putPart, hi]

theorem wellFormed_of_part? (hv : v.WellFormed) (hpart : v.part? step = some part) :
    part.WellFormed := by
  cases hasPart_of_part? hpart with
  | field hget => exact WellFormed.get? hv.2 hget
  | element hx => exact wellFormedItems_iff.mp hv part (List.mem_of_getElem? hx)

theorem wellFormed_putPart (hv : v.WellFormed) (hnew : new.WellFormed)
    (hpart : v.part? step = some part) : (v.putPart step new).WellFormed := by
  cases hasPart_of_part? hpart with
  | @field _ name _ => exact wellFormed_insert hv hnew name
  | @element xs i _ hx =>
    have hi : i ≠ xs.length := (List.getElem?_eq_some_iff.mp hx).1.ne
    rw [putPart, if_neg hi]
    exact wellFormed_items_set hv hnew i

theorem wellFormed_putAt (hv : v.WellFormed) (h : v.valueAt? place = some old)
    (hnew : new.WellFormed) : (v.putAt place new).WellFormed := by
  induction place generalizing v with
  | nil => exact hnew
  | cons step rest ih =>
    obtain ⟨part, hpart, hrest⟩ := Option.bind_eq_some_iff.mp h
    rw [putAt_cons hpart]
    exact wellFormed_putPart hv (ih (wellFormed_of_part? hv hpart) hrest) hpart

theorem place?_cons_eq_some : v.place? (s :: rest) = some place ↔
    ∃ step part below, v.into? s = some (step, part) ∧ part.place? rest = some below ∧
      place = step :: below := by
  simp only [place?, Option.bind_eq_some_iff, Option.map_eq_some_iff, Prod.exists]
  constructor
  · rintro ⟨step, part, hinto, below, hbelow, rfl⟩
    exact ⟨step, part, below, hinto, hbelow, rfl⟩
  · rintro ⟨step, part, below, hinto, hbelow, rfl⟩
    exact ⟨step, part, hinto, below, hbelow, rfl⟩

theorem length_of_place? (h : v.place? front = some place) : place.length = front.length := by
  induction front generalizing v place with
  | nil => cases h; rfl
  | cons s rest ih =>
    obtain ⟨step, part, below, -, hbelow, rfl⟩ := place?_cons_eq_some.mp h
    exact congrArg Nat.succ (ih hbelow)

/-- A path leads where its rest leads from what its front leads to. -/
theorem place?_append_eq_some : v.place? (front ++ more) = some place ↔
    ∃ above x below, v.place? front = some above ∧ v.valueAt? above = some x ∧
      x.place? more = some below ∧ place = above ++ below := by
  induction front generalizing v place with
  | nil =>
    constructor
    · intro h
      exact ⟨[], v, place, rfl, rfl, h, rfl⟩
    · rintro ⟨above, x, below, habove, hx, hbelow, rfl⟩
      cases habove
      cases hx
      exact hbelow
  | cons s rest ih =>
    rw [List.cons_append, place?_cons_eq_some]
    constructor
    · rintro ⟨step, part, after, hinto, hafter, rfl⟩
      obtain ⟨above, x, below, habove, hx, hbelow, rfl⟩ := ih.mp hafter
      refine ⟨step :: above, x, below, ?_, ?_, hbelow, rfl⟩
      · exact place?_cons_eq_some.mpr ⟨step, part, above, hinto, habove, rfl⟩
      · rw [valueAt?, (into?_eq_some.mp hinto).2]
        exact hx
    · rintro ⟨above, x, below, habove, hx, hbelow, rfl⟩
      obtain ⟨step, part, above, hinto, hrest, rfl⟩ := place?_cons_eq_some.mp habove
      rw [valueAt?, (into?_eq_some.mp hinto).2] at hx
      exact ⟨step, part, above ++ below, hinto, ih.mpr ⟨above, x, below, hrest, hx, hbelow, rfl⟩,
        rfl⟩

theorem into?_putAt (hinto : v.into? s = some (step, part)) (rest : Place) (new : Value) :
    (v.putAt (step :: rest) new).into? s = some (step, part.putAt rest new) := by
  obtain ⟨hstep, hpart⟩ := into?_eq_some.mp hinto
  rw [putAt_cons hpart, into?_putPart hstep (takes_of_part? hpart)]

/-- A path that leads to a place still does, and goes on from there in the new value. -/
theorem place?_putAt (h : v.place? front = some place) (more : List String) (new : Value) :
    (v.putAt place new).place? (front ++ more) = (new.place? more).map (place ++ ·) := by
  induction front generalizing v place with
  | nil => cases h; exact (Option.map_id' (x := new.place? more)).symm
  | cons s rest ih =>
    obtain ⟨step, part, below, hinto, hbelow, rfl⟩ := place?_cons_eq_some.mp h
    rw [List.cons_append, place?, into?_putAt hinto, Option.bind_some, ih hbelow, Option.map_map]
    rfl

theorem write_putAt (h : v.place? front = some place) (path : String) (x : Value)
    (more seen : List String) (new : Value) :
    write path x (front ++ more) seen (v.putAt place new) =
      ((write path x more (seen ++ front) new).1,
        v.putAt place (write path x more (seen ++ front) new).2) := by
  induction front generalizing v place seen with
  | nil => cases h; rw [List.append_nil]; rfl
  | cons s rest ih =>
    obtain ⟨step, part, below, hinto, hbelow, rfl⟩ := place?_cons_eq_some.mp h
    have hpart := (into?_eq_some.mp hinto).2
    have hinto' := into?_putAt hinto below new
    obtain ⟨hstep, hpart'⟩ := into?_eq_some.mp hinto'
    rw [List.cons_append, write_of_takes hstep (takes_of_part? hpart'), hpart', Option.getD_some,
      ih hbelow, putAt_cons hpart, putPart_putPart hpart, putAt_cons hpart, List.append_assoc,
      List.singleton_append]

theorem cut_putAt (h : v.place? front = some place) (leaf : String) (parents : List String)
    (new : Value) : cut leaf (front ++ parents) (v.putAt place new) =
      ((cut leaf parents new).1, v.putAt place (cut leaf parents new).2) := by
  induction front generalizing v place with
  | nil => cases h; rfl
  | cons s rest ih =>
    obtain ⟨step, part, below, hinto, hbelow, rfl⟩ := place?_cons_eq_some.mp h
    have hpart := (into?_eq_some.mp hinto).2
    rw [List.cons_append, cut_cons, into?_putAt hinto]
    dsimp only
    rw [ih hbelow, putAt_cons hpart, putPart_putPart hpart, putAt_cons hpart]

end

/-! ## Removal by one path -/
section Remove
variable {v new x : Value} {place : Place} {more rest : List String} {s : String}
  {xs : List Value} {i : Nat} {front : List String}

/-- The value without what the path leads to. -/
def remove (v : Value) (path : List String) : Value :=
  match path.getLast? with
  | some leaf => (cut leaf path.dropLast v).2
  | none => v

theorem remove_concat (v : Value) (parents : List String) (leaf : String) :
    v.remove (parents ++ [leaf]) = (cut leaf parents v).2 := by
  rw [remove, List.getLast?_concat, List.dropLast_concat]

theorem remove_putAt (h : v.place? front = some place) (hmore : more ≠ []) (new : Value) :
    (v.putAt place new).remove (front ++ more) = v.putAt place (new.remove more) := by
  obtain ⟨parents, leaf, rfl⟩ : ∃ parents leaf, more = parents ++ [leaf] :=
    ⟨more.dropLast, more.getLast hmore, (List.dropLast_concat_getLast hmore).symm⟩
  rw [← List.append_assoc, remove_concat, remove_concat, cut_putAt h]

theorem remove_cons (h : rest ≠ []) (v : Value) (s : String) : v.remove (s :: rest) =
    match v.into? s with
    | some (step, part) => v.putPart step (part.remove rest)
    | none => v := by
  obtain ⟨parents, leaf, rfl⟩ : ∃ parents leaf, rest = parents ++ [leaf] :=
    ⟨rest.dropLast, rest.getLast h, (List.dropLast_concat_getLast h).symm⟩
  rw [← List.cons_append, remove_concat, cut_cons]
  cases v.into? s with
  | none => rfl
  | some e => dsimp only; rw [remove_concat]

theorem into?_of_index (hi : Path.arrayIndex s = some i) (hx : xs[i]? = some x) :
    (array xs).into? s = some (.element i, x) :=
  into?_eq_some.mpr ⟨by rw [step?, hi]; rfl, hx⟩

theorem remove_element (hi : Path.arrayIndex s = some i) (hlt : i < xs.length) :
    (array xs).remove [s] = array (xs.eraseIdx i) := by
  have hinto := into?_of_index hi (List.getElem?_eq_getElem hlt)
  rw [← List.nil_append [s], remove_concat, cut_nil, hinto]
  rfl

end Remove
end Value

/-! ## Documents -/
namespace Document
open Value
variable {d : Document} {place : Place} {old : Value}

theorem exists_fields_putAt (h : (Value.object d.fields).valueAt? place = some old)
    (hold : ∀ fs, old ≠ .object fs) (new : Value) :
    ∃ fields, (Value.object d.fields).putAt place new = .object fields := by
  cases place with
  | nil => exact absurd (Option.some.inj h).symm (hold d.fields)
  | cons step rest =>
    obtain ⟨part, hpart, -⟩ := Option.bind_eq_some_iff.mp h
    cases step with
    | field name => exact ⟨_, putAt_cons hpart rest new⟩
    | element i => cases hpart

end Document
end DocBase
