import DocBase.Proofs.Query.Projection
import DocBase.Proofs.Value.Prune

/-! What projections leave out. The listed paths are removed one after another, each from what the
ones before it have left, and not from the document as it was. -/
namespace DocBase
open Keyed

/-- To remove this path before that one changes what that one means: this one takes an element out
of a list, and that one leads into the same list, to this element or to one behind it. -/
def Value.Disturbs (v : Value) (this that : List String) : Prop :=
  ∃ place front s rest xs i j, v.place? this = some (place ++ [.element i]) ∧
    that = front ++ s :: rest ∧ v.place? front = some place ∧
    v.valueAt? place = some (.array xs) ∧ Path.arrayIndex s = some j ∧
    i ≤ j ∧ j < xs.length ∧ i + 1 < xs.length

/-! ## Lists in which two paths meet -/
namespace Value
variable {s : String} {rest : List String} {i n : Nat}

/-- Objects inside one another under these names, and at the end something that is not one. -/
def chain : List String → Value
  | [] => .bool true
  | s :: rest => .object [(s, chain rest)]

/-- A list in which only the last element leads on. -/
def crowd (n : Nat) (rest : List String) : Value := .array (List.replicate n .null ++ [chain rest])

theorem wellFormed_chain (rest : List String) : (chain rest).WellFormed := by
  induction rest with
  | nil => trivial
  | cons s rest ih => simpa [chain, WellFormed, WellFormedFields, Ascending] using ih

theorem wellFormed_crowd (n : Nat) (rest : List String) : (crowd n rest).WellFormed := by
  refine wellFormedItems_iff.mpr fun x hx => ?_
  rcases List.mem_append.mp hx with hx | hx
  · rw [List.eq_of_mem_replicate hx]
    trivial
  · rw [List.mem_singleton.mp hx]
    exact wellFormed_chain rest

theorem chain_ne_null (rest : List String) : chain rest ≠ .null := by
  cases rest <;> simp [chain]

theorem remove_chain (h : rest ≠ []) : (chain rest).remove rest ≠ chain rest := by
  induction rest with
  | nil => exact absurd rfl h
  | cons s rest ih =>
    have hinto : (chain (s :: rest)).into? s = some (.field s, chain rest) := by
      simp [chain, Value.into?, step?, part?, Keyed.get?, Std.ReflOrd.compare_self]
    cases rest with
    | nil =>
      rw [← List.nil_append [s], remove_concat, List.nil_append, cut_nil, hinto]
      simp [chain, erasePart, Keyed.erase, Std.ReflOrd.compare_self]
    | cons t rest =>
      have hrest := ih (List.cons_ne_nil t rest)
      rw [remove_cons (List.cons_ne_nil t rest), hinto]
      simpa [chain, putPart, Keyed.insert, Std.ReflOrd.compare_self] using hrest

theorem into?_crowd {x : Value} (hs : Path.arrayIndex s = some i)
    (hx : (List.replicate n .null ++ [chain rest])[i]? = some x) :
    (crowd n rest).into? s = some (.element i, x) := into?_of_index hs hx

/-- An element goes, and those behind it close up. -/
theorem remove_crowd (hs : Path.arrayIndex s = some i) (h : i ≤ n) :
    (crowd (n + 1) rest).remove [s] = crowd n rest := by
  rw [crowd, remove_element hs (by simp; omega),
    List.eraseIdx_append_of_lt_length (by simp; omega), List.eraseIdx_replicate,
    if_pos (by omega), Nat.add_sub_cancel]
  rfl

theorem remove_crowd_last (hs : Path.arrayIndex s = some n) (k : Nat) :
    (crowd n rest).remove (s :: rest) ≠ crowd k rest := by
  have hmem : chain rest ∈ List.replicate k .null ++ [chain rest] := by simp
  have hlast : (List.replicate n .null ++ [chain rest])[n]? = some (chain rest) := by simp
  cases rest with
  | nil =>
    rw [crowd, remove_element hs (by simp), List.eraseIdx_append_of_length_le (by simp)]
    intro h
    rw [crowd, array.injEq] at h
    rw [← h] at hmem
    simp [chain] at hmem
  | cons t rest =>
    have hne := List.cons_ne_nil t rest
    rw [remove_cons hne, into?_crowd hs hlast]
    intro h
    simp only [crowd, putPart, array.injEq] at h
    rw [if_neg (by simp), List.set_append_right _ _ (by simp)] at h
    rw [← h] at hmem
    rcases List.mem_append.mp hmem with hnull | hsame
    · exact chain_ne_null _ (List.eq_of_mem_replicate hnull)
    · exact remove_chain hne (by simpa [eq_comm] using hsame)

theorem place?_crowd (hs : Path.arrayIndex s = some i) (h : i < n) (more : List String) :
    (crowd n rest).place? (s :: more) = if more = [] then some [.element i] else none := by
  have hnull : (List.replicate n .null ++ [chain rest])[i]? = some Value.null := by
    rw [List.getElem?_append_left (by simpa using h), List.getElem?_replicate, if_pos h]
  rw [place?, into?_crowd hs hnull, Option.bind_some]
  cases more <;> rfl

end Value

namespace Document

/-- The places of the fields that the paths lead to. -/
def places (d : Document) (fs : List String) : List Value.Place :=
  (Projection.userPaths fs).filterMap (Value.object d.fields).place?

def listed (d : Document) (fs : List String) : Value.Place → Bool := fun l => decide (l ∈ d.places fs)

/-- The document without what the paths lead to in it, all taken out at once. -/
def without (d : Document) (fs : List String) : Document where
  id := d.id
  fields := Value.pruneFields (d.listed fs) d.fields
  createdAt := if createdField ∈ fs then none else d.createdAt
  updatedAt := if updatedField ∈ fs then none else d.updatedAt

theorem without_congr {d : Document} {fs gs : List String} (hlisted : d.listed gs = d.listed fs)
    (htimes : ∀ name, isAssigned name → (name ∈ gs ↔ name ∈ fs)) :
    d.without gs = d.without fs := by
  simp only [without, hlisted, htimes createdField rfl, htimes updatedField rfl]

theorem mem_places {d : Document} {fs : List String} {l : Value.Place} : l ∈ d.places fs ↔
    ∃ f ∈ fs, isAssigned f = false ∧
      (Value.object d.fields).place? (Path.segments f) = some l := by
  rw [places, List.mem_filterMap]
  constructor
  · rintro ⟨path, hpath, hl⟩
    obtain ⟨f, hf, huser, rfl⟩ := Projection.mem_userPaths.mp hpath
    exact ⟨f, hf, huser, hl⟩
  · rintro ⟨f, hf, huser, hl⟩
    exact ⟨_, Projection.mem_userPaths.mpr ⟨f, hf, huser, rfl⟩, hl⟩

theorem without_of_mem_iff {d : Document} {fs gs : List String} (h : ∀ f, f ∈ gs ↔ f ∈ fs) :
    d.without gs = d.without fs := by
  refine without_congr (funext fun l => ?_) fun name _ => h name
  simp only [listed, mem_places, h]

/-- No path of the list changes what a later one means. -/
def Undisturbed (d : Document) (fs : List String) : Prop :=
  (Projection.userPaths fs).Pairwise fun this that =>
    ¬ (Value.object d.fields).Disturbs this that

end Document

namespace Projection
variable {d out : Document} {fs gs : List String} {path : String}

theorem userPaths_cons (f : String) (fs : List String) : userPaths (f :: fs) =
    if Document.isAssigned f then userPaths fs else Path.segments f :: userPaths fs := by
  cases hf : Document.isAssigned f <;> simp [userPaths, hf]

theorem userPaths_append (fs gs : List String) :
    userPaths (fs ++ gs) = userPaths fs ++ userPaths gs := by
  simp [userPaths]

/-! ## One removal -/

theorem drop_of_user (h : Document.isAssigned path = false) (out : Document) :
    ∃ fields, drop out path = { out with fields } ∧
      Value.object fields = (Value.object out.fields).remove (Path.segments path) := by
  simp only [Document.isAssigned, Bool.or_eq_false_iff, beq_eq_false_iff_ne] at h
  obtain ⟨parents, leaf, hsegments⟩ := Document.exists_leaf path
  rw [drop, if_neg h.1.1, if_neg h.1.2, if_neg h.2, hsegments, Value.remove_concat]
  cases hcut : out.cutPath path with
  | mk removed after =>
    obtain ⟨hvalue, hafter⟩ := Document.cutPath_eq hcut hsegments
    exact ⟨after.fields, hafter, (congrArg Prod.snd hvalue).symm⟩

theorem drop_of_assigned (h : Document.isAssigned path = true) (out : Document) :
    drop out path = { out with
      createdAt := if path = Document.createdField then none else out.createdAt
      updatedAt := if path = Document.updatedField then none else out.updatedAt } := by
  simp only [Document.isAssigned, Bool.or_eq_true, beq_iff_eq] at h
  rcases h with (rfl | rfl) | rfl <;> rfl

/-- The paths before it leave the next path its meaning. -/
theorem steady_of_undisturbed (hf : Document.isAssigned path = false)
    (h : d.Undisturbed (fs ++ [path])) :
    Value.Steady (d.listed fs) (.object d.fields) (Path.segments path) := by
  intro front s rest place xs i j hpath hplace hvalue hj hi hlt hgone
  rw [Document.Undisturbed, userPaths_append, List.pairwise_append] at h
  obtain ⟨this, hthis, hremoved⟩ := List.mem_filterMap.mp (of_decide_eq_true hgone)
  have hclear := h.2.2 this hthis (Path.segments path)
    (mem_userPaths.mpr ⟨path, List.mem_singleton_self path, hf, rfl⟩)
  by_contra hlast
  exact hclear ⟨place, front, s, rest, xs, i, j, hremoved, hpath, hplace, hvalue, hj, hi, hlt,
    by omega⟩

theorem listed_concat_of_user (hf : Document.isAssigned path = false) (d : Document)
    (fs : List String) : d.listed (fs ++ [path]) =
      Value.also (d.listed fs) ((Value.object d.fields).place? (Path.segments path)) := by
  have hone : userPaths [path] = [Path.segments path] := by simp [userPaths, hf]
  funext l
  rw [Document.listed, Document.places, userPaths_append, List.filterMap_append, hone,
    List.filterMap_cons, List.filterMap_nil]
  cases (Value.object d.fields).place? (Path.segments path) with
  | none => simp [Value.also, Document.listed, Document.places]
  | some place => simp [Value.also, Document.listed, Document.places, eq_comm (a := l)]

theorem listed_concat_of_assigned (hf : Document.isAssigned path = true) (d : Document)
    (fs : List String) : d.listed (fs ++ [path]) = d.listed fs := by
  have hnone : userPaths [path] = [] := by simp [userPaths, hf]
  funext l
  rw [Document.listed, Document.places, userPaths_append, hnone, List.append_nil]
  rfl

theorem mem_concat_of_user (hf : Document.isAssigned path = false) (fs : List String)
    {name : String} (hname : Document.isAssigned name) : name ∈ fs ++ [path] ↔ name ∈ fs := by
  have hne : name ≠ path := fun h => by simp [h, hf] at hname
  simp [hne]

/-! ## All removals -/

theorem dropping_eq_without (hd : d.Ordered) (h : d.Undisturbed fs) :
    (dropping fs).apply d = d.without fs := by
  induction fs using List.reverseRecOn with
  | nil =>
    have hnone : ∀ l, l ≠ [] → d.listed [] l = false := fun l _ => rfl
    rw [Document.without, Value.pruneFields_of_none hnone]
    rfl
  | append_singleton fs path ih =>
    have hbefore : (dropping fs).apply d = d.without fs := by
      refine ih ?_
      rw [Document.Undisturbed, userPaths_append] at h
      exact (List.pairwise_append.mp h).1
    have hstep : (dropping (fs ++ [path])).apply d = drop (d.without fs) path := by
      rw [← hbefore, apply, apply, List.foldl_append]
      rfl
    rw [hstep]
    cases hf : Document.isAssigned path with
    | true =>
      have hmem (name : String) (old : Option Int64) :
          (if path = name then none else if name ∈ fs then none else old) =
            if name ∈ fs ++ [path] then none else old := by
        by_cases hname : name ∈ fs <;> by_cases hpath : path = name <;>
          simp [hname, hpath, eq_comm]
      rw [drop_of_assigned hf, Document.without, Document.without,
        listed_concat_of_assigned hf, hmem, hmem]
    | false =>
      have hsteady := steady_of_undisturbed hf h
      obtain ⟨fields, hdrop, hfields⟩ := drop_of_user hf (d.without fs)
      obtain ⟨parents, leaf, hsegments⟩ := Document.exists_leaf path
      rw [hsegments] at hsteady hfields
      have hprune : Value.object fields =
          Value.prune (d.listed (fs ++ [path])) (.object d.fields) := by
        rw [listed_concat_of_user hf, hsegments, ← Value.cut_prune hd hsteady, hfields,
          Value.remove_concat]
        rfl
      rw [hdrop, Value.object.inj hprune]
      have hcreated : Document.createdField ∈ fs ++ [path] ↔ _ := mem_concat_of_user hf fs rfl
      have hupdated : Document.updatedField ∈ fs ++ [path] ↔ _ := mem_concat_of_user hf fs rfl
      simp only [Document.without, hcreated, hupdated]

/-! ## Where the order counts -/
section Order
open Value
variable {p q : String} {u : Place} {front rest parents : List String} {s leaf : String} {i j : Nat}

theorem userPaths_pair (hp : Document.isAssigned p = false) (hq : Document.isAssigned q = false) :
    userPaths [p, q] = [Path.segments p, Path.segments q] := by
  simp [userPaths, hp, hq]

theorem fields_dropping (fs : List String) (d : Document) :
    Value.object ((dropping fs).apply d).fields =
      (userPaths fs).foldl Value.remove (.object d.fields) := by
  rw [apply]
  induction fs generalizing d with
  | nil => rfl
  | cons f fs ih =>
    rw [List.foldl_cons, ih]
    cases hf : Document.isAssigned f with
    | true => rw [drop_of_assigned hf, userPaths_cons, if_pos hf]
    | false =>
      obtain ⟨fields, hdrop, hfields⟩ := drop_of_user hf d
      rw [hdrop, userPaths_cons, if_neg (by simp [hf]), List.foldl_cons, ← hfields]

/-- A path that takes an element out of a list leads to the list with all segments but the last. -/
theorem place?_concat_element {v : Value}
    (h : v.place? (parents ++ [leaf]) = some (u ++ [.element i])) :
    v.place? parents = some u ∧ Path.arrayIndex leaf = some i := by
  obtain ⟨above, x, below, habove, -, hbelow, hsplit⟩ := place?_append_eq_some.mp h
  obtain ⟨step, part, after, hinto, hafter, rfl⟩ := place?_cons_eq_some.mp hbelow
  cases hafter
  obtain ⟨rfl, hstep⟩ := List.append_inj' hsplit rfl
  cases hstep
  refine ⟨habove, ?_⟩
  have hstep := (into?_eq_some.mp hinto).1
  cases x with
  | array xs => simpa [step?] using hstep
  | _ => simp [step?] at hstep

/-- The one behind leaves the one in front of it alone. -/
theorem not_disturbs_back {v : Value} {this : List String}
    (hthis : v.place? this = some (u ++ [.element j]))
    (hthat : v.place? (parents ++ [leaf]) = some (u ++ [.element i])) (h : i < j) :
    ¬ v.Disturbs this (parents ++ [leaf]) := by
  rintro ⟨place, front, s, rest, xs, j', i', hplace, hsplit, hfront, -, hi', hij, -, -⟩
  obtain ⟨hparents, hi⟩ := place?_concat_element hthat
  obtain ⟨rfl, hj⟩ := List.append_inj' (Option.some.inj (hthis.symm.trans hplace)) rfl
  cases hj
  have hlength : parents.length = front.length := by
    rw [← length_of_place? hparents, ← length_of_place? hfront]
  obtain ⟨-, hrest⟩ := List.append_inj hsplit hlength
  obtain ⟨rfl, -⟩ := List.cons.inj hrest
  rw [hi, Option.some.injEq] at hi'
  omega

theorem without_pair (hp : Document.isAssigned p = false) (hq : Document.isAssigned q = false)
    (h : (Value.object d.fields).place? (Path.segments q) = none ∨
      (Value.object d.fields).place? (Path.segments q) =
        (Value.object d.fields).place? (Path.segments p)) :
    d.without [p, q] = d.without [p] := by
  refine Document.without_congr ?_ fun name => mem_concat_of_user hq [p]
  refine (listed_concat_of_user hq d [p]).trans ?_
  cases hplace : (Value.object d.fields).place? (Path.segments q) with
  | none => exact also_none _
  | some l =>
    rw [hplace] at h
    have hlisted : l ∈ d.places [p] := Document.mem_places.mpr
      ⟨p, List.mem_singleton_self p, hp, (h.resolve_left (by simp)).symm⟩
    funext m
    by_cases hm : l = m
    · simp [also, Document.listed, ← hm, hlisted]
    · simp [also, hm]

/-- Two paths that meet in a list. This one ends at an element of it, and that one goes through
the same element or through one behind it. -/
structure Crossing (v : Value) (this that : List String) (u : Place) (leaf s : String)
    (rest : List String) (i j : Nat) : Prop where
  ends : ∃ parents, this = parents ++ [leaf] ∧ v.place? parents = some u
  passes : ∃ front, that = front ++ s :: rest ∧ v.place? front = some u
  list : ∃ xs, v.valueAt? u = some (.array xs)
  leaf : Path.arrayIndex leaf = some i
  index : Path.arrayIndex s = some j
  le : i ≤ j

namespace Crossing
variable {v : Value} {this that : List String} {n : Nat}

theorem of_disturbs (hleaf : this = parents ++ [leaf]) (h : v.Disturbs this that) :
    ∃ u s rest i j, Crossing v this that u leaf s rest i j := by
  obtain ⟨u, front, s, rest, xs, i, j, hplace, hthat, hfront, hxs, hj, hij, -, -⟩ := h
  obtain ⟨hparents, hi⟩ := place?_concat_element (hleaf ▸ hplace)
  exact ⟨u, s, rest, i, j, ⟨parents, hleaf, hparents⟩, ⟨front, hthat, hfront⟩, ⟨xs, hxs⟩, hi, hj,
    hij⟩

theorem remove_this (h : Crossing v this that u leaf s rest i j) (new : Value) :
    (v.putAt u new).remove this = v.putAt u (new.remove [leaf]) := by
  obtain ⟨parents, rfl, hparents⟩ := h.ends
  exact remove_putAt hparents (List.cons_ne_nil _ _) new

theorem remove_that (h : Crossing v this that u leaf s rest i j) (new : Value) :
    (v.putAt u new).remove that = v.putAt u (new.remove (s :: rest)) := by
  obtain ⟨front, rfl, hfront⟩ := h.passes
  exact remove_putAt hfront (List.cons_ne_nil _ _) new

theorem place?_this (h : Crossing v this that u leaf s rest i j) (hn : i < n) :
    (v.putAt u (crowd n rest)).place? this = some (u ++ [.element i]) := by
  obtain ⟨parents, rfl, hparents⟩ := h.ends
  rw [place?_putAt hparents, place?_crowd h.leaf hn]
  rfl

theorem place?_that (h : Crossing v this that u leaf s rest i j) (hn : j < n) :
    (v.putAt u (crowd n rest)).place? that =
      if rest = [] then some (u ++ [.element j]) else none := by
  obtain ⟨front, rfl, hfront⟩ := h.passes
  rw [place?_putAt hfront, place?_crowd h.index hn]
  split <;> rfl

end Crossing

section Crowded
variable {crowded : Document} (hp : Document.isAssigned p = false)
  (hq : Document.isAssigned q = false)
  (h : Crossing (.object d.fields) (Path.segments p) (Path.segments q) u leaf s rest i j)
  (hcrowded : (Value.object d.fields).putAt u (crowd (j + 1) rest) = .object crowded.fields)
include hp hq h hcrowded

/-- Once the first path has taken an element out, the second one means the last element. -/
theorem dropping_crowded : Value.object ((dropping [p, q]).apply crowded).fields =
    (Value.object d.fields).putAt u ((crowd j rest).remove (s :: rest)) := by
  rw [fields_dropping, userPaths_pair hp hq, List.foldl_cons, List.foldl_cons, List.foldl_nil,
    ← hcrowded, h.remove_this, remove_crowd h.leaf h.le, h.remove_that]

/-- Taken out at once they leave the last element alone. -/
theorem exists_crowd_of_without (hordered : crowded.Ordered) : ∃ k,
    Value.object (crowded.without [p, q]).fields =
      (Value.object d.fields).putAt u (crowd k rest) := by
  have hplace_p := h.place?_this (n := j + 1) (Nat.lt_succ_of_le h.le)
  have hplace_q := h.place?_that (n := j + 1) (Nat.lt_succ_self j)
  rw [hcrowded] at hplace_p hplace_q
  by_cases hsecond : rest = [] ∧ i < j
  -- two elements, of which the one behind may as well go first
  · obtain ⟨rfl, hlt⟩ := hsecond
    have hback : crowded.Undisturbed [q, p] := by
      rw [Document.Undisturbed, userPaths_pair hq hp, List.pairwise_pair]
      obtain ⟨parents, hleaf, -⟩ := h.ends
      rw [hleaf] at hplace_p ⊢
      exact not_disturbs_back hplace_q hplace_p hlt
    have hswap : crowded.without [p, q] = crowded.without [q, p] :=
      Document.without_of_mem_iff (by simp [or_comm])
    obtain ⟨k, rfl⟩ : ∃ k, j = k + 1 := ⟨j - 1, by omega⟩
    refine ⟨k, ?_⟩
    rw [hswap, ← dropping_eq_without hordered hback, fields_dropping, userPaths_pair hq hp,
      List.foldl_cons, List.foldl_cons, List.foldl_nil, ← hcrowded, h.remove_that,
      remove_crowd h.index le_rfl, h.remove_this, remove_crowd h.leaf (Nat.le_of_lt_succ hlt)]
  -- one element, or a second path that leads nowhere
  · have honce : crowded.without [p, q] = crowded.without [p] := by
      refine without_pair hp hq ?_
      rw [hplace_p, hplace_q]
      rcases eq_or_ne rest [] with hrest | hrest
      · rw [if_pos hrest, le_antisymm h.le (by simpa [hrest] using hsecond)]
        exact Or.inr rfl
      · exact Or.inl (if_neg hrest)
    have hone : crowded.Undisturbed [p] := by
      rw [Document.Undisturbed, userPaths_cons, if_neg (by simp [hp])]
      exact List.pairwise_singleton _ _
    refine ⟨j, ?_⟩
    rw [honce, ← dropping_eq_without hordered hone, fields_dropping, userPaths_cons,
      if_neg (by simp [hp]), List.foldl_cons, ← hcrowded, h.remove_this, remove_crowd h.leaf h.le]
    rfl

end Crowded

/-- Of two paths that meet in a list the first one changes what the second means, and that shows
when the list has the right elements. -/
theorem not_disturbs_of_exact (hp : Document.isAssigned p = false)
    (hq : Document.isAssigned q = false)
    (hexact : ∀ d : Document, d.Ordered → (dropping [p, q]).apply d = d.without [p, q])
    (hd : d.Ordered) :
    ¬ (Value.object d.fields).Disturbs (Path.segments p) (Path.segments q) := by
  intro hdisturbs
  obtain ⟨parents, leaf, hleaf⟩ := Document.exists_leaf p
  obtain ⟨u, s, rest, i, j, h⟩ := Crossing.of_disturbs hleaf hdisturbs
  obtain ⟨xs, hxs⟩ := h.list
  obtain ⟨fields, hfields⟩ := Document.exists_fields_putAt hxs (by simp) (crowd (j + 1) rest)
  let crowded : Document := { d with fields }
  have hordered : crowded.Ordered := by
    rw [Document.Ordered, ← hfields]
    exact wellFormed_putAt hd hxs (wellFormed_crowd _ _)
  have hcrowded : (Value.object d.fields).putAt u (crowd (j + 1) rest) = .object crowded.fields :=
    hfields
  have hdropped := dropping_crowded hp hq h hcrowded
  obtain ⟨k, hk⟩ := exists_crowd_of_without hp hq h hcrowded hordered
  rw [hexact crowded hordered, hk] at hdropped
  have hsame := congrArg (·.valueAt? u) hdropped
  rw [valueAt?_putAt hxs, valueAt?_putAt hxs, Option.some.injEq] at hsame
  exact remove_crowd_last h.index k hsame.symm

theorem not_disturbs_of_field {v : Value} {this : List String} {name : String}
    (hthis : v.place? this = some (u ++ [.field name])) (that : List String) :
    ¬ v.Disturbs this that := by
  rintro ⟨place, front, s, rest, xs, i, j, hplace, -⟩
  obtain ⟨-, hstep⟩ := List.append_inj' (Option.some.inj (hthis.symm.trans hplace)) rfl
  cases hstep

end Order

/-- Where no path of the list changes what a later one means, just what is listed is left out: all
else stays, or moves up as elements in front of it go, and it does not matter in which order paths
are listed, or how often. A list of two paths leaves out what they mean in every document if and
only if there is no document in which the first one changes what the second means. -/
theorem drops_what_is_listed {d : Document} {fs : List String} (hd : d.Ordered)
    (h : d.Undisturbed fs) :
    let out := (dropping fs).apply d
    (out = d.without fs ∧
      (∀ gs, (∀ f, f ∈ gs ↔ f ∈ fs) → d.Undisturbed gs → (dropping gs).apply d = out) ∧
      (∀ m w, (Value.object out.fields).valueAt? m = some w ↔
        ∃ l x, (Value.object d.fields).valueAt? l = some x ∧ Value.Stays (d.listed fs) l ∧
          Value.settle (d.listed fs) l = m ∧ Value.prune (fun k => d.listed fs (l ++ k)) x = w) ∧
      ∀ l x, (Value.object d.fields).valueAt? l = some x →
        (∀ place ∈ d.places fs, ¬ place <+: l ∧ ¬ l <+: place) →
        (Value.object out.fields).valueAt? (Value.settle (d.listed fs) l) = some x) ∧
    ∀ p q, Document.isAssigned p = false → Document.isAssigned q = false →
      ((∀ d : Document, d.Ordered → (dropping [p, q]).apply d = d.without [p, q]) ↔
        ∀ d : Document, d.Ordered →
          ¬ (Value.object d.fields).Disturbs (Path.segments p) (Path.segments q)) := by
  intro out
  constructor
  · have hout : out = d.without fs := dropping_eq_without hd h
    have hfields : Value.object out.fields = Value.prune (d.listed fs) (.object d.fields) := by
      rw [hout]
      rfl
    rw [hfields]
    refine ⟨hout, fun gs hgs hundisturbed => ?_, fun m w => Value.valueAt?_prune hd,
      fun l x hx hoff => ?_⟩
    · rw [dropping_eq_without hd hundisturbed, Document.without_of_mem_iff hgs, hout]
    · have hstays : Value.Stays (d.listed fs) l := fun k _ hk =>
        decide_eq_false fun hplace => (hoff k hplace).1 hk
      have hwhole : Value.prune (fun k => d.listed fs (l ++ k)) x = x :=
        Value.prune_of_none (fun k _ => decide_eq_false fun hplace =>
          (hoff _ hplace).2 (List.prefix_append l k)) x
      exact (Value.valueAt?_prune hd).mpr ⟨l, x, hx, hstays, rfl, hwhole⟩
  · intro p q hp hq
    refine ⟨fun hexact d hd => not_disturbs_of_exact hp hq hexact hd, fun h d hd => ?_⟩
    refine dropping_eq_without hd ?_
    rw [Document.Undisturbed, userPaths_pair hp hq, List.pairwise_pair]
    exact h d hd

/-- Elements are listed from the last one to the first. -/
theorem drops_what_is_listed_backwards :
    let d : Document := { fields := [("a", .array [.int 1, .int 2, .object [("b", .int 3)]])] }
    let fs := ["a.2.b", "a.1", "a.0", "_id"]
    d.Ordered ∧ d.Undisturbed fs ∧
      (dropping fs).apply d = d.without fs ∧ d.without fs = { fields := [("a", .array [.object []])] }
      ∧ (Value.object ((dropping fs).apply d).fields).valueAt? [.field "a", .element 0] =
        some (.object []) := by
  intro d fs
  have hd : d.Ordered := by
    simp [d, Document.Ordered, Value.WellFormed, Value.WellFormedFields, Value.WellFormedItems,
      Ascending]
  have hundisturbed : d.Undisturbed fs := by
    have hpaths : userPaths fs = [["a", "2", "b"], ["a", "1"], ["a", "0"]] := rfl
    rw [Document.Undisturbed, hpaths]
    refine .cons (fun that _ => ?_) (List.pairwise_pair.mpr ?_)
    · exact not_disturbs_of_field (u := [.field "a", .element 2]) rfl that
    · have hfront : (Value.object d.fields).place? (["a"] ++ ["0"]) =
          some ([.field "a"] ++ [.element 0]) := rfl
      exact not_disturbs_back rfl hfront Nat.zero_lt_one
  obtain ⟨hout, -, hleft, -⟩ := (drops_what_is_listed hd hundisturbed).1
  refine ⟨hd, hundisturbed, hout, rfl, (hleft _ _).mpr ?_⟩
  have hstays : Value.Stays (d.listed fs) [.field "a", .element 2] :=
    Value.stays_cons.mpr ⟨rfl, Value.stays_cons.mpr ⟨rfl, Value.stays_nil⟩⟩
  exact ⟨_, _, rfl, hstays, rfl, rfl⟩

example : (dropping ["a.0", "a.1"]).apply
    { fields := [("a", .array [.int 1, .int 2, .int 3])] } =
      { fields := [("a", .array [.int 2])] } := rfl

end Projection
end DocBase
