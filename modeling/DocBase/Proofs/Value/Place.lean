import DocBase.Value.Path
import DocBase.Proofs.Keyed

/-! Places in values. A path is text and may name one place in several ways; a place is the steps
themselves, from the outermost value through names and indices to one of its parts. What stands
in a value is told by its parts, one step deep, and so is what changes when one part is put in. -/
namespace DocBase.Value
open Keyed

inductive Step
  | field (name : String)
  | element (i : Nat)
  deriving DecidableEq

abbrev Place := List Step

/-- The part that is one step into the value. -/
def part? : Value → Step → Option Value
  | object fs, .field name => Keyed.get? name fs
  | array xs, .element i => xs[i]?
  | _, _ => none

def valueAt? (v : Value) : Place → Option Value
  | [] => some v
  | step :: rest => (v.part? step).bind (·.valueAt? rest)

/-- The step that a segment means at this value; whether it leads anywhere is not asked. -/
def step? : Value → String → Option Step
  | object _, s => some (.field s)
  | array _, s => (Path.arrayIndex s).map .element
  | _, _ => none

/-- The step that a segment means, and the part it leads to. -/
def into? (v : Value) (s : String) : Option (Step × Value) := do
  let step ← v.step? s
  let part ← v.part? step
  return (step, part)

/-- The place that a path leads to. -/
def place? (v : Value) : List String → Option Place
  | [] => some []
  | s :: rest => (v.into? s).bind fun e => (e.2.place? rest).map (e.1 :: ·)

/-! ## Reading -/
section Reading
variable {v part : Value} {s : String} {step : Step}

theorem into?_eq_some : v.into? s = some (step, part) ↔
    v.step? s = some step ∧ v.part? step = some part := by
  simp only [into?, Option.bind_eq_bind, Option.bind_eq_some_iff, Option.pure_def,
    Option.some.injEq, Prod.mk.injEq]
  constructor
  · rintro ⟨_, hstep, _, hpart, rfl, rfl⟩
    exact ⟨hstep, hpart⟩
  · rintro ⟨hstep, hpart⟩
    exact ⟨step, hstep, part, hpart, rfl, rfl⟩

/-- Only objects and lists have parts, each by steps of its own kind. -/
inductive HasPart : Value → Step → Value → Prop
  | field {fs : Fields} {name : String} {part : Value} (h : Keyed.get? name fs = some part) :
      HasPart (object fs) (.field name) part
  | element {xs : List Value} {i : Nat} {part : Value} (h : xs[i]? = some part) :
      HasPart (array xs) (.element i) part

theorem hasPart_of_part? (h : v.part? step = some part) : v.HasPart step part := by
  cases v with
  | object fs =>
    cases step with
    | field name => exact .field h
    | element i => cases h
  | array xs =>
    cases step with
    | field name => cases h
    | element i => exact .element h
  | _ => cases h

theorem at?_nil (v : Value) : v.at? [] = some v := by cases v <;> rfl

/-- Reading goes one step into the value and on from there. -/
theorem at?_cons (v : Value) (s : String) (rest : List String) :
    v.at? (s :: rest) = (v.into? s).bind fun e => e.2.at? rest := by
  cases v with
  | object fs => cases hget : Keyed.get? s fs <;> simp [at?, into?, step?, part?, hget]
  | array xs =>
    cases hi : Path.arrayIndex s with
    | none => simp [at?, into?, step?, hi]
    | some i => cases hget : xs[i]? <;> simp [at?, into?, step?, part?, hi, hget]
  | _ => rfl

/-- A path reads what stands at the place it leads to. -/
theorem at?_eq_valueAt? (v : Value) (path : List String) :
    v.at? path = (v.place? path).bind v.valueAt? := by
  induction path generalizing v with
  | nil => exact at?_nil v
  | cons s rest ih =>
    rw [at?_cons, place?]
    cases hinto : v.into? s with
    | none => rfl
    | some e =>
      obtain ⟨step, part⟩ := e
      have hpart : v.part? step = some part := (into?_eq_some.mp hinto).2
      simp only [Option.bind_some, ih part]
      cases part.place? rest with
      | none => rfl
      | some place => simp [valueAt?, hpart]

theorem valueAt?_append (v : Value) (l m : Place) :
    v.valueAt? (l ++ m) = (v.valueAt? l).bind (·.valueAt? m) := by
  induction l generalizing v with
  | nil => rfl
  | cons step l ih =>
    rw [List.cons_append, valueAt?, valueAt?]
    cases v.part? step with
    | none => rfl
    | some part => exact ih part

theorem valueAt?_empty {l : Place} (h : l ≠ []) : (object []).valueAt? l = none := by
  cases l with
  | nil => exact absurd rfl h
  | cons step l => cases step <;> rfl

end Reading

/-! ## Putting in a part -/

/-- A part may be put in: an object takes any name, and a list takes an index up to its length. -/
inductive Takes : Value → Step → Prop
  | field (fs : Fields) (name : String) : Takes (object fs) (.field name)
  | element {xs : List Value} {i : Nat} (h : i ≤ xs.length) : Takes (array xs) (.element i)

/-- The value with another part one step into it. -/
def putPart (v : Value) (step : Step) (part : Value) : Value :=
  match v, step with
  | object fs, .field name => object (Keyed.insert name part fs)
  | array xs, .element i => array (if i = xs.length then xs ++ [part] else xs.set i part)
  | v, _ => v

section PutPart
variable {v part : Value} {step : Step}

theorem takes_of_part? (h : v.part? step = some part) : v.Takes step := by
  cases hasPart_of_part? h with
  | @field fs name _ => exact .field fs name
  | element hx => exact .element (List.getElem?_eq_some_iff.mp hx).1.le

theorem part?_putPart_self (h : v.Takes step) (part : Value) :
    (v.putPart step part).part? step = some part := by
  cases h with
  | field fs name => exact get?_insert_same name part fs
  | @element xs i hi =>
    rw [putPart, part?]
    by_cases hend : i = xs.length
    · rw [if_pos hend, hend, List.getElem?_concat_length]
    · rw [if_neg hend, List.getElem?_set_self (by omega)]

theorem part?_putPart_ne (h : v.Takes step) (part : Value) {other : Step} (hne : other ≠ step) :
    (v.putPart step part).part? other = v.part? other := by
  cases h with
  | field fs name =>
    cases other with
    | field name' =>
      exact get?_insert_ne (fun h => hne (congrArg Step.field h)) part
    | element i => rfl
  | @element xs i hi =>
    cases other with
    | field name => rfl
    | element j =>
      have hji : j ≠ i := fun h => hne (congrArg Step.element h)
      rw [putPart, part?, part?]
      by_cases hend : i = xs.length
      · rw [if_pos hend]
        rcases Nat.lt_or_ge j xs.length with hj | hj
        · exact List.getElem?_append_left hj
        · rw [List.getElem?_eq_none (by simp; omega), List.getElem?_eq_none hj]
      · rw [if_neg hend, List.getElem?_set_ne (Ne.symm hji)]

/-- Putting in the part that is there changes nothing. -/
theorem putPart_self (h : v.part? step = some part) : v.putPart step part = v := by
  cases hasPart_of_part? h with
  | field hget => exact congrArg object (insert_of_get? hget)
  | element hx =>
    obtain ⟨hi, hx⟩ := List.getElem?_eq_some_iff.mp hx
    rw [putPart, if_neg hi.ne, ← hx, List.set_getElem_self]

theorem typeName_putPart (v : Value) (step : Step) (part : Value) :
    (v.putPart step part).typeName = v.typeName := by
  cases v <;> cases step <;> rfl

theorem step?_putPart (v : Value) (step : Step) (part : Value) (s : String) :
    (v.putPart step part).step? s = v.step? s := by
  cases v <;> cases step <;> rfl

theorem into?_putPart {s : String} (hstep : v.step? s = some step) (htakes : v.Takes step)
    (part : Value) : (v.putPart step part).into? s = some (step, part) :=
  into?_eq_some.mpr ⟨(step?_putPart v step part s).trans hstep, part?_putPart_self htakes part⟩

/-- Elements of a list stay where they are, and none goes. -/
theorem elements_putPart {xs : List Value} (h : (array xs).Takes step) (part : Value) :
    ∃ ys, (array xs).putPart step part = array ys ∧ xs.length ≤ ys.length ∧
      ∀ i < xs.length, .element i ≠ step → ys[i]? = xs[i]? := by
  have hparts := fun i (hne : Step.element i ≠ step) => part?_putPart_ne h part hne
  cases h with
  | @element xs i hi =>
    refine ⟨_, rfl, ?_, fun j _ hne => hparts j hne⟩
    split <;> simp

end PutPart

/-! ## Places that a change does not reach -/

/-- The values have the same at every place that is neither on the way to the given one nor
below it. -/
def AgreeOff (place : Place) (before after : Value) : Prop :=
  ∀ l, ¬ l <+: place → ¬ place <+: l → after.valueAt? l = before.valueAt? l

/-- Of a part that was missing there is nothing more than of an empty object. -/
theorem agreeOff_putPart {v part : Value} {step : Step} {place : Place} (ht : v.Takes step)
    (h : AgreeOff place ((v.part? step).getD (object [])) part) :
    AgreeOff (step :: place) v (v.putPart step part) := by
  intro l habove hbelow
  cases l with
  | nil => exact absurd List.nil_prefix habove
  | cons other l =>
    rw [valueAt?, valueAt?]
    by_cases hstep : other = step
    · subst hstep
      have habove' : ¬ l <+: place := fun hl => habove (List.cons_prefix_cons.mpr ⟨rfl, hl⟩)
      have hbelow' : ¬ place <+: l := fun hl => hbelow (List.cons_prefix_cons.mpr ⟨rfl, hl⟩)
      rw [part?_putPart_self ht, Option.bind_some, h l habove' hbelow']
      cases v.part? other with
      | none => exact valueAt?_empty fun hl => habove' (hl ▸ List.nil_prefix)
      | some old => rfl
    · rw [part?_putPart_ne ht part hstep]

end DocBase.Value
