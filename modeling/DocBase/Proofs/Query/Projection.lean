import DocBase.Proofs.Value.Outline
import DocBase.Query.Filter

/-! What projections make of documents. -/
namespace DocBase
open Keyed

/-- The paths under which the engine's own entries are looked up. -/
def Document.isAssigned (path : String) : Bool :=
  path == idField || path == createdField || path == updatedField

/-- A write makes at most one field, which the path begins with. -/
theorem Document.names_writePath {d : Document} {path : String} {v : Value} {e : String × Value}
    (he : e ∈ (d.writePath path v).2.fields) :
    (Path.segments path).head? = some e.1 ∨ ∃ w, (e.1, w) ∈ d.fields := by
  obtain ⟨s, rest, hsegments⟩ := exists_segments path
  obtain ⟨fs, hfs, hnames⟩ := Value.names_write path v s rest [] d.fields
  rw [writePath, hsegments] at he
  dsimp only at he
  rw [hfs] at he
  rw [hsegments]
  exact (hnames e he).imp_left fun hname => congrArg some hname.symm

namespace Projection
variable {d out : Document} {fs gs : List String}

/-- The paths that lead into the fields. -/
def userPaths (fs : List String) : List (List String) :=
  (fs.filter fun f => !Document.isAssigned f).map Path.segments

theorem mem_userPaths {path : List String} : path ∈ userPaths fs ↔
    ∃ f ∈ fs, Document.isAssigned f = false ∧ Path.segments f = path := by
  simp [userPaths, and_assoc]

/-! ## Keeping -/

theorem keep_of_user {path : String} (h : Document.isAssigned path = false) (d out : Document) :
    keep d out path = match d.get? path with
      | some v => (out.writePath path v).2
      | none => out := by
  simp only [Document.isAssigned, Bool.or_eq_false_iff, beq_eq_false_iff_ne] at h
  rw [keep, if_neg h.1.1, if_neg h.1.2]
  exact if_neg h.2

theorem fields_keep_of_assigned {path : String} (h : Document.isAssigned path = true)
    (d out : Document) : (keep d out path).fields = out.fields := by
  simp only [Document.isAssigned, Bool.or_eq_true, beq_iff_eq] at h
  rw [keep]
  split
  · rfl
  split
  · rfl
  split
  · rfl
  next hid hcreated hupdated =>
    rcases h with (h | h) | h
    · exact absurd h hid
    · exact absurd h hcreated
    · exact absurd h hupdated

/-- A write of what the document has at the path is never refused. -/
theorem adds_writePath (hout : (Value.object out.fields).Outlines (.object d.fields))
    {path : String} {v : Value} (hv : d.get? path = some v) :
    ∃ after, out.writePath path v = (.ok (), { out with fields := after }) ∧
      Value.Adds (.object d.fields) [Path.segments path] (.object out.fields) (.object after) := by
  obtain ⟨s, rest, hsegments⟩ := exists_segments path
  obtain ⟨w, hwrite, hadds⟩ := Value.adds_write path [] hout hv
  obtain ⟨after, hafter, -⟩ := Value.names_write path v s rest [] out.fields
  rw [hsegments] at hwrite
  rw [hwrite] at hafter
  dsimp only at hafter
  subst hafter
  refine ⟨after, ?_, hadds⟩
  rw [Document.writePath, hsegments, hwrite]
  rfl

theorem adds_keep (hout : (Value.object out.fields).Outlines (.object d.fields)) (path : String) :
    Value.Adds (.object d.fields) (userPaths [path]) (.object out.fields)
      (.object (keep d out path).fields) := by
  cases hassigned : Document.isAssigned path with
  | true =>
    have hnone : userPaths [path] = [] := by simp [userPaths, hassigned]
    rw [hnone, fields_keep_of_assigned hassigned]
    exact .nil hout
  | false =>
    have hone : userPaths [path] = [Path.segments path] := by simp [userPaths, hassigned]
    rw [hone, keep_of_user hassigned]
    cases hv : d.get? path with
    | none => exact .none hout hv
    | some v =>
      obtain ⟨after, hwrite, hadds⟩ := adds_writePath hout hv
      dsimp only
      rw [hwrite]
      exact hadds

theorem adds_foldl_keep (hout : (Value.object out.fields).Outlines (.object d.fields))
    (fs : List String) : Value.Adds (.object d.fields) (userPaths fs) (.object out.fields)
      (.object (fs.foldl (keep d) out).fields) := by
  induction fs generalizing out with
  | nil => exact .nil hout
  | cons f fs ih =>
    have hfirst := adds_keep hout f
    have hsplit : userPaths (f :: fs) = userPaths [f] ++ userPaths fs := by
      simp [userPaths, List.filter_cons]
      split <;> rfl
    rw [hsplit]
    exact hfirst.trans (ih hfirst.below)

/-- The fields that are kept are the least outline of all that has these paths. -/
theorem adds_keeping (fs : List String) (d : Document) :
    Value.Adds (.object d.fields) (userPaths fs) (.object [])
      (.object ((keeping fs).apply d).fields) := by
  have hstart : (Value.object ({ id := d.id } : Document).fields).Outlines (.object d.fields) :=
    .empty _
  exact adds_foldl_keep hstart fs

theorem keep_eq (d out : Document) (path : String) : ∃ fields, keep d out path = {
    id := out.id
    fields
    createdAt := if path = Document.createdField then d.createdAt else out.createdAt
    updatedAt := if path = Document.updatedField then d.updatedAt else out.updatedAt } := by
  rw [keep]
  split
  next h => exact ⟨out.fields, by rw [h]; rfl⟩
  split
  next h => exact ⟨out.fields, by rw [h]; rfl⟩
  split
  next => exact ⟨out.fields, rfl⟩
  split
  next v _ =>
    cases hwrite : out.writePath path v with
    | mk outcome after => exact ⟨after.fields, (Document.writePath_eq hwrite).2⟩
  next => exact ⟨out.fields, rfl⟩

theorem foldl_keep_eq (fs : List String) (d out : Document) :
    ∃ fields, fs.foldl (keep d) out = {
      id := out.id
      fields
      createdAt := if Document.createdField ∈ fs then d.createdAt else out.createdAt
      updatedAt := if Document.updatedField ∈ fs then d.updatedAt else out.updatedAt } := by
  induction fs generalizing out with
  | nil => exact ⟨out.fields, rfl⟩
  | cons f fs ih =>
    have hmem (name : String) (new old : Option Int64) : (if name ∈ f :: fs then new else old) =
        if name ∈ fs then new else if f = name then new else old := by
      by_cases hfs : name ∈ fs
      · rw [if_pos hfs, if_pos (List.mem_cons_of_mem f hfs)]
      · rw [if_neg hfs]
        exact ite_congr (by simp [hfs, eq_comm]) (fun _ => rfl) fun _ => rfl
    obtain ⟨first, hfirst⟩ := keep_eq d out f
    obtain ⟨fields, hfields⟩ := ih (keep d out f)
    refine ⟨fields, ?_⟩
    rw [List.foldl_cons, hfields, hfirst, hmem, hmem]

/-- What is kept of a document: its identifier, the times that are listed, and of its fields the
least outline that has the listed paths. -/
theorem keeping_eq (fs : List String) (d : Document) : ∃ fields,
    (keeping fs).apply d = {
      id := d.id
      fields
      createdAt := if Document.createdField ∈ fs then d.createdAt else none
      updatedAt := if Document.updatedField ∈ fs then d.updatedAt else none } ∧
    Value.Adds (.object d.fields) (userPaths fs) (.object []) (.object fields) := by
  obtain ⟨fields, hfields⟩ := foldl_keep_eq fs d { id := d.id }
  have hadds := adds_keeping fs d
  rw [apply, hfields] at hadds
  exact ⟨fields, hfields, hadds⟩

theorem id_keeping (fs : List String) (d : Document) : ((keeping fs).apply d).id = d.id := by
  obtain ⟨fields, hout, -⟩ := keeping_eq fs d
  rw [hout]

/-- No write that keeps a path fails. -/
theorem setPath_keeping (before : List String) {f : String} {v : Value}
    (huser : Document.isAssigned f = false) (hv : d.get? f = some v) :
    ((keeping before).apply d).setPath f v = .ok ((keeping (before ++ [f])).apply d) := by
  obtain ⟨w, hwrite, -⟩ := adds_writePath (adds_keeping before d).below hv
  have hstep : (keeping (before ++ [f])).apply d = keep d ((keeping before).apply d) f := by
    rw [apply, apply, List.foldl_append]
    rfl
  rw [hstep, keep_of_user huser, hv]
  dsimp only
  rw [Document.setPath, hwrite]

theorem get?_keeping {f : String} (hf : f ∈ fs) (d : Document)
    (huser : Document.isAssigned f = false) : ((keeping fs).apply d).get? f = d.get? f :=
  (adds_keeping fs d).reads _ (mem_userPaths.mpr ⟨f, hf, huser, rfl⟩)

/-- What is listed is looked up as before, be it there or not. -/
theorem lookup_keeping {f : String} (hf : f ∈ fs) (d : Document) :
    ((keeping fs).apply d).lookup f = d.lookup f := by
  have hget := get?_keeping hf d
  obtain ⟨fields, hout, -⟩ := keeping_eq fs d
  rw [hout] at hget ⊢
  rw [Document.lookup, Document.lookup]
  split
  next => rfl
  split
  next h =>
    have hlisted : Document.createdField ∈ fs := h ▸ hf
    simp only [if_pos hlisted]
  split
  next h =>
    have hlisted : Document.updatedField ∈ fs := h ▸ hf
    simp only [if_pos hlisted]
  next hid hcreated hupdated =>
    exact hget (by simp [Document.isAssigned, hid, hcreated, hupdated])

/-- There is but one least outline. -/
theorem keeping_of_mem_iff (h : ∀ f, f ∈ gs ↔ f ∈ fs) (d : Document) :
    (keeping gs).apply d = (keeping fs).apply d := by
  obtain ⟨fields, hout, hadds⟩ := keeping_eq fs d
  obtain ⟨fields', hout', hadds'⟩ := keeping_eq gs d
  have hpaths : ∀ path, path ∈ userPaths gs ↔ path ∈ userPaths fs := fun path => by
    simp only [mem_userPaths, h]
  have hfields := hadds'.unique hadds hpaths
  rw [Value.object.injEq] at hfields
  rw [hout, hout', hfields]
  simp only [h]

theorem keeping_keeping (fs : List String) (d : Document) :
    (keeping fs).apply ((keeping fs).apply d) = (keeping fs).apply d := by
  obtain ⟨fields, hout, hadds⟩ := keeping_eq fs d
  obtain ⟨fields', hagain, hadds'⟩ := keeping_eq fs ((keeping fs).apply d)
  rw [hagain]
  rw [hout] at hadds' ⊢
  have hfields := hadds.again hadds'
  rw [Value.object.injEq] at hfields
  rw [hfields]
  congr 1 <;> split <;> rfl

/-- A listed path that leads somewhere in the document begins with this name. -/
def Begins (d : Document) (fs : List String) (name : String) : Prop :=
  ∃ f ∈ fs, Document.isAssigned f = false ∧ (d.get? f).isSome ∧
    (Path.segments f).head? = some name

theorem begins_foldl_keep {known : List String} (hfs : ∀ f ∈ fs, f ∈ known)
    (hout : ∀ e ∈ out.fields, Begins d known e.1) :
    ∀ e ∈ (fs.foldl (keep d) out).fields, Begins d known e.1 := by
  induction fs generalizing out with
  | nil => exact hout
  | cons f fs ih =>
    refine ih (fun g hg => hfs g (List.mem_cons_of_mem f hg)) fun e he => ?_
    cases hassigned : Document.isAssigned f with
    | true =>
      rw [fields_keep_of_assigned hassigned] at he
      exact hout e he
    | false =>
      rw [keep_of_user hassigned] at he
      cases hv : d.get? f with
      | none =>
        rw [hv] at he
        exact hout e he
      | some v =>
        rw [hv] at he
        rcases Document.names_writePath he with hname | ⟨w, hw⟩
        · exact ⟨f, hfs f List.mem_cons_self, hassigned, by rw [hv]; rfl, hname⟩
        · exact hout (e.1, w) hw

/-- What is kept of the fields is just what is listed: the least outline of all fields that has it.
No write of a listed value is refused on the way, a listed path reads what it read before, also
where that is nothing, and it does not matter in which order paths are listed, how often, or
whether they are kept of what was kept already. -/
theorem keeps_what_is_listed (fs : List String) (d : Document) :
    let out := (keeping fs).apply d
    (∀ before f after v, fs = before ++ f :: after → Document.isAssigned f = false →
      d.get? f = some v → ((keeping before).apply d).setPath f v =
        .ok ((keeping (before ++ [f])).apply d)) ∧
    (∀ f ∈ fs, out.lookup f = d.lookup f ∧
      (Document.isAssigned f = false → out.get? f = d.get? f)) ∧
    (∀ e ∈ out.fields, Begins d fs e.1) ∧
    Value.Adds (.object d.fields) (userPaths fs) (.object []) (.object out.fields) ∧
    out.id = d.id ∧
    (∀ gs, (∀ f, f ∈ gs ↔ f ∈ fs) → (keeping gs).apply d = out) ∧
    (keeping fs).apply out = out := by
  intro out
  refine ⟨fun before f after v _ => setPath_keeping before, fun f hf => ?_, ?_, adds_keeping fs d,
    id_keeping fs d, fun gs hgs => ?_, keeping_keeping fs d⟩
  · exact ⟨lookup_keeping hf d, get?_keeping hf d⟩
  · exact begins_foldl_keep (fun f hf => hf) fun e he => absurd he List.not_mem_nil
  · exact keeping_of_mem_iff hgs d

example : (keeping ["a.+1", "a.0", "a.2"]).apply
    { fields := [("a", .array [.int 5, .int 6])] } =
      { fields := [("a", .object [("+1", .int 6), ("0", .int 5)])] } := rfl

end Projection
end DocBase
