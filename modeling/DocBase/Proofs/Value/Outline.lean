import DocBase.Proofs.Document.Write

/-! Copies of a value that have some of its parts. Such an outline is the whole value, or an object
that has outlines of parts under the segments that lead to them: elements of a list stand in it as
fields, under their indices as they were written. Outlines of one value are ordered by what they
have of it, and to write what a path reads in the value makes the least one that has this too. -/
namespace DocBase.Value
open Keyed

inductive Outlines : Value → Value → Prop
  | whole (v : Value) : Outlines v v
  | parts {fs : Fields} {v : Value} (hfs : Ascending fs) (source : String → Value)
      (hsource : ∀ s x, Keyed.get? s fs = some x → v.at? [s] = some (source s))
      (h : ∀ s x, Keyed.get? s fs = some x → Outlines x (source s)) : Outlines (object fs) v

section Order
variable {u v w x y : Value} {s : String} {path : List String}

theorem at?_singleton_object (s : String) (fs : Fields) :
    (object fs).at? [s] = Keyed.get? s fs := by
  rw [at?]
  cases Keyed.get? s fs with
  | none => rfl
  | some v => exact at?_nil v

theorem at?_cons_eq_bind (v : Value) (s : String) (rest : List String) :
    v.at? (s :: rest) = (v.at? [s]).bind (·.at? rest) := by
  rw [at?_cons, at?_cons]
  cases v.into? s with
  | none => rfl
  | some e => simp [at?_nil]

namespace Outlines

theorem of_parts {fs : Fields} (hfs : Ascending fs)
    (h : ∀ s x, Keyed.get? s fs = some x → ∃ y, v.at? [s] = some y ∧ x.Outlines y) :
    (object fs).Outlines v := by
  refine .parts hfs (fun s => (v.at? [s]).getD null) (fun s x hx => ?_) fun s x hx => ?_
  · obtain ⟨y, hy, -⟩ := h s x hx
    rw [hy, Option.getD_some]
  · obtain ⟨y, hy, hxy⟩ := h s x hx
    rwa [hy, Option.getD_some]

theorem empty (v : Value) : (object []).Outlines v := of_parts ascending_nil fun _ _ h => nomatch h

theorem part (h : w.Outlines v) (hx : w.at? [s] = some x) :
    ∃ y, v.at? [s] = some y ∧ x.Outlines y := by
  cases h with
  | whole => exact ⟨x, hx, .whole x⟩
  | parts hfs source hsource h =>
    rw [at?_singleton_object] at hx
    exact ⟨source s, hsource s x hx, h s x hx⟩

/-- A part that is missing counts as an empty object. -/
theorem part_getD {fs : Fields} (h : (object fs).Outlines v) (hy : v.at? [s] = some y) :
    ((Keyed.get? s fs).getD (object [])).Outlines y := by
  cases hx : Keyed.get? s fs with
  | none => exact .empty y
  | some x =>
    obtain ⟨z, hz, hxz⟩ := h.part ((at?_singleton_object s fs).trans hx)
    rw [hy, Option.some.injEq] at hz
    exact hz ▸ hxz

/-- What an outline has at a path outlines what the value has there. -/
theorem at? (h : w.Outlines v) (hx : w.at? path = some x) :
    ∃ y, v.at? path = some y ∧ x.Outlines y := by
  induction path generalizing v w with
  | nil =>
    rw [at?_nil] at hx
    cases hx
    exact ⟨v, at?_nil v, h⟩
  | cons s rest ih =>
    rw [at?_cons_eq_bind] at hx
    obtain ⟨w', hw', hx⟩ := Option.bind_eq_some_iff.mp hx
    obtain ⟨v', hv', h'⟩ := h.part hw'
    rw [at?_cons_eq_bind, hv']
    exact ih h' hx

theorem at?_eq_none (h : w.Outlines v) (hv : v.at? path = none) : w.at? path = none := by
  cases hx : w.at? path with
  | none => rfl
  | some x =>
    obtain ⟨y, hy, -⟩ := h.at? hx
    rw [hv] at hy
    cases hy

theorem trans (h : u.Outlines v) (h' : v.Outlines w) : u.Outlines w := by
  induction h generalizing w with
  | whole => exact h'
  | parts hfs source hsource _ ih =>
    refine of_parts hfs fun s x hx => ?_
    obtain ⟨z, hz, hsz⟩ := h'.part (hsource s x hx)
    exact ⟨z, hz, ih s x hx hsz⟩

theorem antisymm (h : u.Outlines v) (h' : v.Outlines u) : u = v := by
  induction h with
  | whole => rfl
  | @parts fs v hfs source hsource h ih =>
    cases h' with
    | whole => rfl
    | @parts gs _ hgs source' hsource' h' =>
      refine congrArg object (Keyed.ext hfs hgs fun s => ?_)
      cases hx : Keyed.get? s fs with
      | none =>
        cases hy : Keyed.get? s gs with
        | none => rfl
        | some y =>
          have hback := hsource' s y hy
          rw [at?_singleton_object, hx] at hback
          cases hback
      | some x =>
        have hy := hsource s x hx
        rw [at?_singleton_object] at hy
        have hback := hsource' s (source s) hy
        rw [at?_singleton_object, hx, Option.some.injEq] at hback
        rw [hy, ih s x hx (hback ▸ h' s (source s) hy)]

end Outlines

/-- What a path reads right in an outline it reads right in all that have more. -/
theorem Outlines.reads_mono (h : u.Outlines w) (hw : w.Outlines v)
    (hreads : u.at? path = v.at? path) : w.at? path = v.at? path := by
  cases hx : v.at? path with
  | none => exact hw.at?_eq_none hx
  | some x =>
    rw [hx] at hreads
    obtain ⟨y, hy, hxy⟩ := h.at? hreads
    obtain ⟨z, hz, hyz⟩ := hw.at? hy
    rw [hx, Option.some.injEq] at hz
    rw [hy, hxy.antisymm (hz ▸ hyz)]

end Order

/-! ## Least outlines -/

/-- The second outline has all of the first one and all that these paths read in the value, and
nothing else. -/
structure Adds (v : Value) (paths : List (List String)) (before after : Value) : Prop where
  above : before.Outlines after
  below : after.Outlines v
  reads : ∀ path ∈ paths, after.at? path = v.at? path
  least : ∀ u, before.Outlines u → u.Outlines v → (∀ path ∈ paths, u.at? path = v.at? path) →
    after.Outlines u

namespace Adds
variable {v before middle after other : Value} {paths more : List (List String)}

theorem nil (h : before.Outlines v) : Adds v [] before before :=
  ⟨.whole before, h, fun _ hpath => absurd hpath List.not_mem_nil, fun _ hu _ _ => hu⟩

/-- Nothing is added by a path that does not lead anywhere. -/
theorem none {path : List String} (h : before.Outlines v) (hpath : v.at? path = .none) :
    Adds v [path] before before := by
  refine ⟨.whole before, h, fun p hp => ?_, fun _ hu _ _ => hu⟩
  rw [List.mem_singleton.mp hp, hpath, h.at?_eq_none hpath]

theorem trans (h : Adds v paths before middle) (h' : Adds v more middle after) :
    Adds v (paths ++ more) before after where
  above := h.above.trans h'.above
  below := h'.below
  reads := by
    intro path hpath
    rcases List.mem_append.mp hpath with hpath | hpath
    · exact h'.above.reads_mono h'.below (h.reads path hpath)
    · exact h'.reads path hpath
  least := by
    intro u hbefore hu hreads
    have hmiddle := h.least u hbefore hu fun p hp => hreads p (List.mem_append_left _ hp)
    exact h'.least u hmiddle hu fun p hp => hreads p (List.mem_append_right _ hp)

/-- It does not matter in which order the paths come, nor how often. -/
theorem unique (h : Adds v paths before after) (h' : Adds v more before other)
    (hmem : ∀ path, path ∈ paths ↔ path ∈ more) : after = other :=
  (h.least other h'.above h'.below fun p hp => h'.reads p ((hmem p).mp hp)).antisymm <|
    h'.least after h.above h.below fun p hp => h.reads p ((hmem p).mpr hp)

/-- What was added from an outline is nothing more than that outline had to add. -/
theorem again (h : Adds v paths before after) (h' : Adds after paths before other) :
    other = after := by
  have hreads : ∀ path ∈ paths, other.at? path = v.at? path := fun path hpath =>
    (h'.reads path hpath).trans (h.reads path hpath)
  exact h'.below.antisymm (h.least other h'.above (h'.below.trans h.below) hreads)

/-- What is added to one part is added to the whole. -/
theorem insert {fs : Fields} (hfs : Ascending fs) (hobject : (object fs).Outlines v) {s : String}
    {rest : List String} {part new : Value} (hs : v.at? [s] = some part)
    (hpart : part.at? rest = some new)
    (h : Adds part [rest] ((Keyed.get? s fs).getD (object [])) after) :
    Adds v [s :: rest] (object fs) (object (Keyed.insert s after fs)) := by
  have hget : ∀ t, Keyed.get? t (Keyed.insert s after fs) =
      if t = s then some after else Keyed.get? t fs := fun t => by
    rw [get?_insert hfs]
    simp only [Std.compare_eq_iff_eq]
  refine ⟨.of_parts hfs fun t x hx => ?_, .of_parts (hfs.insert s after) fun t x hx => ?_,
    fun path hpath => ?_, fun u habove hbelow hreads => ?_⟩
  · rw [at?_singleton_object, hget]
    split
    next heq =>
      refine ⟨after, rfl, ?_⟩
      have habove := h.above
      rwa [← heq, hx, Option.getD_some] at habove
    next => exact ⟨x, hx, .whole x⟩
  · rw [hget] at hx
    split at hx
    next heq =>
      cases hx
      exact ⟨part, heq ▸ hs, h.below⟩
    next => exact hobject.part ((at?_singleton_object t fs).trans hx)
  · rw [List.mem_singleton.mp hpath, at?_cons_eq_bind, at?_singleton_object, hget, if_pos rfl,
      at?_cons_eq_bind, hs]
    exact h.reads rest (List.mem_singleton_self rest)
  · have hu := hreads (s :: rest) (List.mem_singleton_self _)
    rw [at?_cons_eq_bind v, hs, Option.bind_some, hpart, at?_cons_eq_bind] at hu
    obtain ⟨x, hx, hu⟩ := Option.bind_eq_some_iff.mp hu
    obtain ⟨y, hy, hxy⟩ := hbelow.part hx
    rw [hs, Option.some.injEq] at hy
    refine .of_parts (hfs.insert s after) fun t z hz => ?_
    rw [hget] at hz
    split at hz
    next heq =>
      cases hz
      refine ⟨x, heq ▸ hx, h.least x (habove.part_getD hx) (hy ▸ hxy) fun path hpath => ?_⟩
      rw [List.mem_singleton.mp hpath, hu, hpart]
    next => exact habove.part ((at?_singleton_object t fs).trans hz)

end Adds

/-! ## Writing -/
section Writing
variable {path : String} {s : String} {rest seen : List String} {v w new : Value}

/-- To write what is there succeeds and changes nothing. -/
theorem write_of_at? (h : v.at? rest = some new) : write path new rest seen v = (.ok (), v) := by
  induction rest generalizing v seen with
  | nil =>
    rw [at?_nil] at h
    cases h
    rfl
  | cons s rest ih =>
    rw [at?_cons] at h
    obtain ⟨⟨step, part⟩, hinto, h⟩ := Option.bind_eq_some_iff.mp h
    obtain ⟨hstep, hpart⟩ := into?_eq_some.mp hinto
    rw [write_of_takes hstep (takes_of_part? hpart), hpart, Option.getD_some, ih h,
      putPart_self hpart]

/-- Every segment of a path that leads somewhere in the value leads on in an outline, or to where
nothing is yet. -/
theorem adds_write (path : String) (seen : List String) (hw : w.Outlines v)
    (h : v.at? rest = some new) : ∃ after, write path new rest seen w = (.ok (), after) ∧ Adds v [rest] w after := by
  induction rest generalizing v w seen with
  | nil =>
    rw [at?_nil] at h
    cases h
    refine ⟨new, rfl, hw, .whole new, fun p hp => ?_, fun u _ _ hreads => ?_⟩
    · rw [List.mem_singleton.mp hp]
    · have hu := hreads [] (List.mem_singleton_self [])
      rw [at?_nil, at?_nil, Option.some.injEq] at hu
      rw [hu]
      exact .whole new
  | cons s rest ih =>
    cases hw with
    | whole =>
      refine ⟨v, write_of_at? h, .whole v, .whole v, fun _ _ => rfl, fun u hu _ _ => hu⟩
    | @parts fs _ hfs source hsource hparts =>
      have hobject : (object fs).Outlines v := .parts hfs source hsource hparts
      have hpart := h
      rw [at?_cons_eq_bind] at hpart
      obtain ⟨part, hs, hpart⟩ := Option.bind_eq_some_iff.mp hpart
      obtain ⟨after, hwrite, hadds⟩ := ih (seen ++ [s]) (hobject.part_getD hs) hpart
      exact ⟨object (Keyed.insert s after fs), by rw [write, hwrite],
        hadds.insert hfs hobject hs hpart⟩

end Writing

end DocBase.Value
