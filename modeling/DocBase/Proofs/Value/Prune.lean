import DocBase.Proofs.Document.Below

/-! Taking many parts out of a value at once. Removals by paths go one after another, and one from
a list moves the elements behind it, so that a later path may come to mean another element. Where
that does not happen the removals together take out what the paths mean in the value as it was. -/
namespace DocBase.Value
open Keyed

/-- What is said of the places that lead through this step, said of the part there. -/
def under (step : Step) (gone : Place → Bool) : Place → Bool := fun l => gone (step :: l)

mutual

/-- The value without its parts at the places that are gone. -/
def prune (gone : Place → Bool) : Value → Value
  | object fs => object (pruneFields gone fs)
  | array xs => array (pruneItems gone 0 xs)
  | v => v

def pruneFields (gone : Place → Bool) : List (String × Value) → List (String × Value)
  | [] => []
  | (k, v) :: rest =>
    if gone [.field k] then pruneFields gone rest
    else (k, prune (under (.field k) gone) v) :: pruneFields gone rest

def pruneItems (gone : Place → Bool) (i : Nat) : List Value → List Value
  | [] => []
  | v :: rest =>
    if gone [.element i] then pruneItems gone (i + 1) rest
    else prune (under (.element i) gone) v :: pruneItems gone (i + 1) rest

end

/-! ## Objects -/
section Fields
variable {gone gone' : Place → Bool} {fs : Fields}

theorem keys_pruneFields_sublist (gone : Place → Bool) (fs : Fields) :
    (keys (pruneFields gone fs)).Sublist (keys fs) := by
  induction fs with
  | nil => exact List.Sublist.refl _
  | cons e rest ih =>
    rw [pruneFields]
    split
    · exact ih.cons e.1
    · exact ih.cons_cons e.1

theorem ascending_pruneFields (h : Ascending fs) (gone : Place → Bool) :
    Ascending (pruneFields gone fs) :=
  List.pairwise_map.mp ((pairwise_keys h).sublist (keys_pruneFields_sublist gone fs))

theorem get?_pruneFields (h : Ascending fs) (gone : Place → Bool) (k : String) :
    Keyed.get? k (pruneFields gone fs) =
      if gone [.field k] then none else (Keyed.get? k fs).map (prune (under (.field k) gone)) := by
  induction fs with
  | nil => simp [pruneFields, Keyed.get?]
  | cons e rest ih =>
    obtain ⟨k', v⟩ := e
    obtain ⟨hlt, hrest⟩ := ascending_cons.mp h
    have hpast : compare k k' ≠ .gt → Keyed.get? k rest = none := by
      intro hc
      refine get?_eq_none_of_lt fun x hx => ?_
      cases hk : compare k k' with
      | lt => exact Std.TransCmp.lt_trans hk (hlt x hx)
      | eq => exact Std.TransCmp.lt_of_eq_of_lt hk (hlt x hx)
      | gt => exact absurd hk hc
    rw [pruneFields]
    split
    next hgone =>
      rw [ih hrest]
      cases hk : compare k k' with
      | lt => simp [Keyed.get?, hk, hpast (by simp [hk])]
      | eq => simp [Std.LawfulEqOrd.eq_of_compare hk, hgone]
      | gt => simp [Keyed.get?, hk]
    next hkept =>
      cases hk : compare k k' with
      | lt => simp [Keyed.get?, hk]
      | eq =>
        obtain rfl := Std.LawfulEqOrd.eq_of_compare hk
        simp [Keyed.get?, hkept]
      | gt =>
        simp only [Keyed.get?, hk]
        exact ih hrest

/-- What is gone from other fields only leaves this one alone. -/
theorem get?_pruneFields_congr (h : Ascending fs) {k : String}
    (hsame : ∀ l, gone' (.field k :: l) = gone (.field k :: l)) :
    Keyed.get? k (pruneFields gone' fs) = Keyed.get? k (pruneFields gone fs) := by
  have hunder : under (.field k) gone' = under (.field k) gone := funext hsame
  rw [get?_pruneFields h, get?_pruneFields h, hsame, hunder]

end Fields

/-! ## Lists -/
section Items
variable {gone gone' : Place → Bool} {xs : List Value} {i j : Nat} {part : Value}

theorem pruneItems_append (gone : Place → Bool) (i : Nat) (xs ys : List Value) :
    pruneItems gone i (xs ++ ys) =
      pruneItems gone i xs ++ pruneItems gone (i + xs.length) ys := by
  induction xs generalizing i with
  | nil => rfl
  | cons x xs ih =>
    have hlength : i + 1 + xs.length = i + (x :: xs).length := by simp; omega
    rw [List.cons_append, pruneItems, pruneItems, ih, hlength]
    split <;> rfl

/-- How many of so many elements from an index on stay. -/
def staying (gone : Place → Bool) (i n : Nat) : Nat :=
  (List.range' i n).countP fun k => !gone [.element k]

theorem staying_succ (gone : Place → Bool) (i n : Nat) : staying gone i (n + 1) =
    staying gone (i + 1) n + if gone [.element i] then 0 else 1 := by
  rw [staying, List.range'_succ, List.countP_cons]
  cases gone [.element i] <;> rfl

theorem staying_of_kept {n : Nat} (h : ∀ k < n, gone [.element k] = false) :
    staying gone 0 n = n := by
  have hall : ∀ k ∈ List.range' 0 n, (!gone [.element k]) = true := fun k hk => by
    rw [h k (by simpa [List.mem_range'_1] using hk)]
    rfl
  rw [staying, List.countP_eq_length.mpr hall, List.length_range']

theorem length_pruneItems (gone : Place → Bool) (i : Nat) (xs : List Value) :
    (pruneItems gone i xs).length = staying gone i xs.length := by
  induction xs generalizing i with
  | nil => rfl
  | cons x xs ih =>
    rw [List.length_cons, staying_succ, pruneItems, ← ih]
    split <;> rfl

/-- The elements of a list without some are those that stay, each behind as many as stay before
it. -/
theorem getElem?_pruneItems {n : Nat} {y : Value} : (pruneItems gone i xs)[n]? = some y ↔
    ∃ j x, xs[j]? = some x ∧ gone [.element (i + j)] = false ∧ staying gone i j = n ∧
      prune (under (.element (i + j)) gone) x = y := by
  induction xs generalizing i n with
  | nil => simp [pruneItems]
  | cons x xs ih =>
    have hnext (j : Nat) : i + 1 + j = i + (j + 1) := by omega
    have hrest (n : Nat) := ih (i := i + 1) (n := n)
    simp only [hnext] at hrest
    rw [← Nat.or_exists_add_one, pruneItems]
    simp only [List.getElem?_cons_zero, List.getElem?_cons_succ, staying_succ]
    cases gone [.element i] with
    | true => simp [hrest]
    | false =>
      cases n with
      | zero => simp [staying]
      | succ n => simp [hrest, staying]

theorem pruneItems_congr
    (h : ∀ k, i ≤ k → k < i + xs.length → ∀ l, gone' (.element k :: l) = gone (.element k :: l)) :
    pruneItems gone' i xs = pruneItems gone i xs := by
  induction xs generalizing i with
  | nil => rfl
  | cons x xs ih =>
    simp only [List.length_cons] at h
    have hhere := h i le_rfl (by omega)
    have hunder : under (.element i) gone' = under (.element i) gone := funext hhere
    rw [pruneItems, pruneItems, hhere, hunder, ih fun k hk hlt => h k (by omega) (by omega)]

/-- The list on both sides of one of its elements. -/
theorem pruneItems_split (h : xs[j]? = some part) (gone : Place → Bool) :
    pruneItems gone 0 xs = pruneItems gone 0 (xs.take j) ++
      ((if gone [.element j] then [] else [prune (under (.element j) gone) part]) ++
        pruneItems gone (j + 1) (xs.drop (j + 1))) := by
  obtain ⟨hj, hpart⟩ := List.getElem?_eq_some_iff.mp h
  have hlength : 0 + (xs.take j).length = j := by simp; omega
  have hxs : xs = xs.take j ++ part :: xs.drop (j + 1) := by
    rw [← hpart, List.getElem_cons_drop, List.take_append_drop]
  conv_lhs => rw [hxs, pruneItems_append, hlength, pruneItems]
  split <;> rfl

/-- No element before this one is gone, so that it keeps its index. -/
theorem length_pruneItems_take (hj : j < xs.length) (h : ∀ k < j, gone [.element k] = false) :
    (pruneItems gone 0 (xs.take j)).length = j := by
  rw [length_pruneItems, List.length_take, Nat.min_eq_left hj.le, staying_of_kept h]

/-- What is gone from one element only leaves those on both sides of it alone. -/
theorem pruneItems_sides (xs : List Value)
    (hoff : ∀ other, other ≠ .element j → ∀ l, gone' (other :: l) = gone (other :: l)) :
    pruneItems gone' 0 (xs.take j) = pruneItems gone 0 (xs.take j) ∧
      pruneItems gone' (j + 1) (xs.drop (j + 1)) = pruneItems gone (j + 1) (xs.drop (j + 1)) := by
  constructor
  · refine pruneItems_congr fun k _ hk => hoff _ fun h => ?_
    rw [List.length_take] at hk
    cases h
    omega
  · refine pruneItems_congr fun k hk _ => hoff _ fun h => ?_
    cases h
    omega

end Items

/-! ## One step -/
section OneStep
variable {gone gone' : Place → Bool} {v part : Value} {step : Step} {s : String}

/-- The step leads to the same part as before: no element in front of it is gone, and the element
itself only if none follows that would take its index. -/
def Keeps (gone : Place → Bool) (v : Value) (step : Step) : Prop :=
  ∀ xs j, v = array xs → step = .element j →
    (∀ i < j, gone [.element i] = false) ∧ (gone [.element j] → xs.length ≤ j + 1)

theorem step?_prune (gone : Place → Bool) (v : Value) (s : String) :
    (prune gone v).step? s = v.step? s := by
  cases v <;> rfl

theorem part?_prune_of_none (hv : v.WellFormed) (hpart : v.part? step = none) :
    (prune gone v).part? step = none := by
  cases v with
  | object fs =>
    cases step with
    | field k =>
      have hnone : Keyed.get? k fs = none := hpart
      rw [prune, part?, get?_pruneFields hv.1, hnone]
      exact ite_self _
    | element i => rfl
  | array xs =>
    cases step with
    | field k => rfl
    | element i =>
      have hxs := List.getElem?_eq_none_iff.mp hpart
      have hstay : staying gone 0 xs.length ≤ xs.length := by
        simpa [staying] using List.countP_le_length (l := List.range' 0 xs.length)
          (p := fun k => !gone [.element k])
      exact List.getElem?_eq_none (by rw [length_pruneItems]; omega)
  | _ => rfl

theorem part?_prune (hv : v.WellFormed) (hpart : v.part? step = some part)
    (hkeeps : Keeps gone v step) : (prune gone v).part? step =
      if gone [step] then none else some (prune (under step gone) part) := by
  cases hasPart_of_part? hpart with
  | field hget =>
    rw [prune, part?, get?_pruneFields hv.1, hget]
    rfl
  | @element xs j _ hx =>
    obtain ⟨hbefore, hlast⟩ := hkeeps xs j rfl rfl
    have hfront := length_pruneItems_take (List.getElem?_eq_some_iff.mp hx).1 hbefore
    rw [prune, part?, pruneItems_split hx, List.getElem?_append_right hfront.le, hfront,
      Nat.sub_self]
    split
    next hgone => rw [List.drop_eq_nil_of_le (hlast hgone)]; rfl
    next => rfl

section
variable (hv : v.WellFormed) (hpart : v.part? step = some part)
  (hoff : ∀ other, other ≠ step → ∀ l, gone' (other :: l) = gone (other :: l))

include hv hpart hoff

/-- It makes no difference what else is gone of a part that is. -/
theorem prune_of_gone (hgone : gone [step]) (hgone' : gone' [step]) :
    prune gone' v = prune gone v := by
  cases hasPart_of_part? hpart with
  | @field fs k _ =>
    refine congrArg object (Keyed.ext (ascending_pruneFields hv.1 _)
      (ascending_pruneFields hv.1 _) fun n => ?_)
    by_cases hn : n = k
    · rw [hn, get?_pruneFields hv.1, get?_pruneFields hv.1, if_pos hgone, if_pos hgone']
    · exact get?_pruneFields_congr hv.1 (hoff _ fun h => hn (Step.field.inj h))
  | @element xs j _ hx =>
    obtain ⟨hfront, hback⟩ := pruneItems_sides xs hoff
    rw [prune, prune, pruneItems_split hx, pruneItems_split hx gone, hfront, hback,
      if_pos hgone, if_pos hgone']

/-- To take a part out after the others is to take it out with them. -/
theorem erasePart_prune (hkeeps : Keeps gone v step) (hkept : gone [step] = false)
    (hgone' : gone' [step]) : (prune gone v).erasePart step = prune gone' v := by
  cases hasPart_of_part? hpart with
  | @field fs k _ =>
    have hpruned := ascending_pruneFields hv.1 gone
    refine congrArg object (Keyed.ext (hpruned.erase k)
      (ascending_pruneFields hv.1 _) fun n => ?_)
    by_cases hn : n = k
    · rw [hn, get?_erase_self hpruned, get?_pruneFields hv.1, if_pos hgone']
    · rw [get?_erase_ne hpruned hn]
      exact (get?_pruneFields_congr hv.1 (hoff _ fun h => hn (Step.field.inj h))).symm
  | @element xs j _ hx =>
    obtain ⟨hfront, hback⟩ := pruneItems_sides xs hoff
    have hlength := length_pruneItems_take (List.getElem?_eq_some_iff.mp hx).1
      (hkeeps xs j rfl rfl).1
    rw [prune, prune, erasePart, pruneItems_split hx, pruneItems_split hx gone', hfront, hback,
      if_neg (by simp [hkept]), if_pos hgone', List.eraseIdx_append_of_length_le hlength.le,
      hlength, Nat.sub_self]
    rfl

/-- To change a part after the others are gone is to change it before. -/
theorem putPart_prune (hkeeps : Keeps gone v step) (hkept : gone [step] = false)
    (hkept' : gone' [step] = false) :
    (prune gone v).putPart step (prune (under step gone') part) = prune gone' v := by
  cases hasPart_of_part? hpart with
  | @field fs k _ hget =>
    have hpruned := ascending_pruneFields hv.1 gone
    refine congrArg object (Keyed.ext (hpruned.insert k _)
      (ascending_pruneFields hv.1 _) fun n => ?_)
    by_cases hn : n = k
    · rw [hn, get?_insert_same, get?_pruneFields hv.1, if_neg (by simp [hkept']), hget]
      rfl
    · rw [get?_insert_ne hn]
      exact (get?_pruneFields_congr hv.1 (hoff _ fun h => hn (Step.field.inj h))).symm
  | @element xs j _ hx =>
    obtain ⟨hfront, hback⟩ := pruneItems_sides xs hoff
    have hlength := length_pruneItems_take (List.getElem?_eq_some_iff.mp hx).1
      (hkeeps xs j rfl rfl).1
    rw [prune, prune, pruneItems_split hx, pruneItems_split hx gone', hfront, hback,
      if_neg (by simp [hkept]), if_neg (by simp [hkept']), putPart, if_neg (by simp; omega),
      List.set_append_right _ _ hlength.le, hlength, Nat.sub_self]
    rfl

end
end OneStep

/-! ## What is left -/
mutual

/-- A value of which nothing is gone is left as it is. -/
theorem prune_of_none {gone : Place → Bool} (h : ∀ l, l ≠ [] → gone l = false) :
    ∀ v : Value, prune gone v = v
  | object fs => congrArg object (pruneFields_of_none h fs)
  | array xs => congrArg array (pruneItems_of_none h 0 xs)
  | null | bool _ | int _ | float _ | string _ => rfl

theorem pruneFields_of_none {gone : Place → Bool} (h : ∀ l, l ≠ [] → gone l = false) :
    ∀ fs : List (String × Value), pruneFields gone fs = fs
  | [] => rfl
  | (k, v) :: rest => by
    have hkept : gone [.field k] = false := h _ (List.cons_ne_nil _ _)
    have hunder : ∀ l, l ≠ [] → under (.field k) gone l = false := fun l _ =>
      h _ (List.cons_ne_nil _ l)
    rw [pruneFields, if_neg (by simp [hkept]), pruneFields_of_none h rest,
      prune_of_none hunder v]

theorem pruneItems_of_none {gone : Place → Bool} (h : ∀ l, l ≠ [] → gone l = false) (i : Nat) :
    ∀ xs : List Value, pruneItems gone i xs = xs
  | [] => rfl
  | v :: rest => by
    have hkept : gone [.element i] = false := h _ (List.cons_ne_nil _ _)
    have hunder : ∀ l, l ≠ [] → under (.element i) gone l = false := fun l _ =>
      h _ (List.cons_ne_nil _ l)
    rw [pruneItems, if_neg (by simp [hkept]), pruneItems_of_none h (i + 1) rest,
      prune_of_none hunder v]

end

section Left
variable {gone : Place → Bool} {v w part : Value} {step found : Step} {l m : Place}

/-- Where a step leads once the elements that are gone no longer count. -/
def shift (gone : Place → Bool) : Step → Step
  | .field k => .field k
  | .element i => .element (staying gone 0 i)

/-- The place to which a value moves as the elements before it go. -/
def settle (gone : Place → Bool) : Place → Place
  | [] => []
  | step :: l => shift gone step :: settle (under step gone) l

/-- Nothing on the way to the place is gone, nor what stands there. -/
def Stays (gone : Place → Bool) (l : Place) : Prop :=
  ∀ k, k ≠ [] → k <+: l → gone k = false

theorem stays_nil : Stays gone [] := fun _ hk hkl => absurd (List.prefix_nil.mp hkl) hk

theorem stays_cons : Stays gone (step :: l) ↔ gone [step] = false ∧ Stays (under step gone) l := by
  constructor
  · intro h
    refine ⟨h [step] (List.cons_ne_nil _ _) (List.cons_prefix_cons.mpr ⟨rfl, List.nil_prefix⟩), ?_⟩
    exact fun k _ hkl => h (step :: k) (List.cons_ne_nil _ _) (List.cons_prefix_cons.mpr ⟨rfl, hkl⟩)
  · rintro ⟨hstep, hl⟩ k hk hkl
    cases k with
    | nil => exact absurd rfl hk
    | cons other k =>
      obtain ⟨rfl, hrest⟩ := List.cons_prefix_cons.mp hkl
      cases k with
      | nil => exact hstep
      | cons next k => exact hl (next :: k) (List.cons_ne_nil _ _) hrest

theorem part?_prune_iff (hv : v.WellFormed) : (prune gone v).part? found = some w ↔
    ∃ step part, v.part? step = some part ∧ gone [step] = false ∧ shift gone step = found ∧
      prune (under step gone) part = w := by
  constructor
  · intro h
    cases v with
    | object fs =>
      cases hasPart_of_part? h with
      | @field _ k _ hget =>
        rw [get?_pruneFields hv.1] at hget
        split at hget
        next => cases hget
        next hkept =>
          obtain ⟨part, hpart, hw⟩ := Option.map_eq_some_iff.mp hget
          exact ⟨.field k, part, hpart, by simpa using hkept, rfl, hw⟩
    | array xs =>
      cases hasPart_of_part? h with
      | element hx =>
        obtain ⟨j, part, hpart, hkept, rfl, hw⟩ := getElem?_pruneItems.mp hx
        rw [Nat.zero_add] at hkept hw
        exact ⟨.element j, part, hpart, hkept, rfl, hw⟩
    | _ => cases h
  · rintro ⟨step, part, hpart, hkept, rfl, rfl⟩
    cases hasPart_of_part? hpart with
    | @field fs k _ hget =>
      rw [shift, prune, part?, get?_pruneFields hv.1, if_neg (by simp [hkept]), hget]
      rfl
    | @element xs j _ hx =>
      rw [shift, prune, part?, getElem?_pruneItems]
      exact ⟨j, part, hx, by rwa [Nat.zero_add], rfl, by rw [Nat.zero_add]⟩

/-- What is left are the values that stay, each without its parts that are gone, and no others. -/
theorem valueAt?_prune (hv : v.WellFormed) : (prune gone v).valueAt? m = some w ↔
    ∃ l x, v.valueAt? l = some x ∧ Stays gone l ∧ settle gone l = m ∧
      prune (fun k => gone (l ++ k)) x = w := by
  induction m generalizing v gone with
  | nil =>
    constructor
    · intro h
      exact ⟨[], v, rfl, stays_nil, rfl, Option.some.inj h⟩
    · rintro ⟨l, x, hx, -, hl, hw⟩
      cases l with
      | nil => cases hx; exact congrArg some hw
      | cons step l => cases hl
  | cons found m ih =>
    rw [valueAt?, Option.bind_eq_some_iff]
    constructor
    · rintro ⟨_, hfound, hw⟩
      obtain ⟨step, part, hpart, hkept, rfl, rfl⟩ := (part?_prune_iff hv).mp hfound
      obtain ⟨l, x, hx, hstays, rfl, hleft⟩ := (ih (wellFormed_of_part? hv hpart)).mp hw
      exact ⟨step :: l, x, by rw [valueAt?, hpart]; exact hx, stays_cons.mpr ⟨hkept, hstays⟩, rfl,
        hleft⟩
    · rintro ⟨l, x, hx, hstays, hl, hw⟩
      cases l with
      | nil => cases hl
      | cons step l =>
        obtain ⟨rfl, rfl⟩ := List.cons.inj hl
        obtain ⟨part, hpart, hx⟩ := Option.bind_eq_some_iff.mp hx
        obtain ⟨hkept, hstays⟩ := stays_cons.mp hstays
        exact ⟨_, (part?_prune_iff hv).mpr ⟨step, part, hpart, hkept, rfl, rfl⟩,
          (ih (wellFormed_of_part? hv hpart)).mpr ⟨l, x, hx, hstays, rfl, hw⟩⟩

end Left

/-! ## Removal by paths -/
section Cut
variable {gone : Place → Bool} {v part : Value} {o : Option Place} {step : Step} {s leaf : String}
  {parents path rest : List String}

/-- One more place is gone, if there is one. -/
def also (gone : Place → Bool) (o : Option Place) : Place → Bool := fun l =>
  gone l || decide (o = some l)

theorem also_none (gone : Place → Bool) : also gone none = gone := by
  funext l
  simp [also]

theorem under_also (gone : Place → Bool) (step : Step) (o : Option Place) :
    under step (also gone (o.map (step :: ·))) = also (under step gone) o := by
  funext l
  cases o <;> simp [also, under]

theorem also_off (gone : Place → Bool) (o : Option Place) {other : Step} (h : other ≠ step)
    (l : Place) :
    also gone (o.map (step :: ·)) (other :: l) = gone (other :: l) := by
  cases o <;> simp [also, Ne.symm h]

/-- The path means in what is left what it means in the value. -/
def Steady (gone : Place → Bool) (v : Value) (path : List String) : Prop :=
  ∀ front s rest place xs i j, path = front ++ s :: rest → v.place? front = some place →
    v.valueAt? place = some (array xs) → Path.arrayIndex s = some j → i ≤ j → j < xs.length →
    gone (place ++ [.element i]) → xs.length ≤ i + 1

theorem Steady.keeps (h : Steady gone v (s :: rest)) (hinto : v.into? s = some (step, part)) :
    Keeps gone v step := by
  rintro xs j rfl rfl
  obtain ⟨hstep, hpart⟩ := into?_eq_some.mp hinto
  obtain ⟨_, hj, hji⟩ := Option.map_eq_some_iff.mp hstep
  cases hji
  have hlt : j < xs.length := (List.getElem?_eq_some_iff.mp hpart).1
  have hlast : ∀ i ≤ j, gone [.element i] → xs.length ≤ i + 1 := fun i hi hgone =>
    h [] s rest [] xs i j rfl rfl rfl hj hi hlt hgone
  refine ⟨fun i hi => ?_, hlast j le_rfl⟩
  by_contra hgone
  have hend := hlast i hi.le (by simpa using hgone)
  omega

theorem Steady.under (h : Steady gone v (s :: rest)) (hinto : v.into? s = some (step, part)) :
    Steady (under step gone) part rest := by
  intro front t after place xs i j hrest hplace hvalue hj hi hlt hgone
  refine h (s :: front) t after (step :: place) xs i j (by rw [hrest]; rfl) ?_ ?_ hj hi hlt hgone
  · rw [place?, hinto, Option.bind_some, hplace]
    rfl
  · rw [valueAt?, (into?_eq_some.mp hinto).2]
    exact hvalue

theorem into?_prune (hv : v.WellFormed)
    (hkeeps : ∀ step part, v.into? s = some (step, part) → Keeps gone v step) :
    (prune gone v).into? s = (v.into? s).bind fun e =>
      if gone [e.1] then none else some (e.1, prune (under e.1 gone) e.2) := by
  cases hstep : v.step? s with
  | none => simp [into?, step?_prune, hstep]
  | some step =>
    cases hpart : v.part? step with
    | none => simp [into?, step?_prune, hstep, hpart, part?_prune_of_none hv hpart]
    | some part =>
      have hinto : v.into? s = some (step, part) := into?_eq_some.mpr ⟨hstep, hpart⟩
      rw [hinto, into?, step?_prune, hstep, Option.bind_eq_bind, Option.bind_some,
        part?_prune hv hpart (hkeeps step part hinto)]
      cases hgone : gone [step] <;> simp [hgone]

/-- To remove what a path leads to after other places are gone is to let it go with them, where the
path keeps its meaning. -/
theorem cut_prune (hv : v.WellFormed) (hsteady : Steady gone v (parents ++ [leaf])) :
    (cut leaf parents (prune gone v)).2 =
      prune (also gone (v.place? (parents ++ [leaf]))) v := by
  induction parents generalizing gone v with
  | nil =>
    rw [cut_nil, into?_prune hv fun _ _ => hsteady.keeps, List.nil_append, place?]
    cases hinto : v.into? leaf with
    | none => rw [Option.bind_none, Option.bind_none, also_none]
    | some e =>
      obtain ⟨step, part⟩ := e
      have hpart := (into?_eq_some.mp hinto).2
      have hgone' : also gone ((some []).map (step :: ·)) [step] := by simp [also]
      have hoff (other : Step) (h : other ≠ step) := also_off gone (some []) h
      rw [Option.bind_some, Option.bind_some]
      cases hgone : gone [step] with
      | true => exact (prune_of_gone hv hpart hoff hgone hgone').symm
      | false => exact erasePart_prune hv hpart hoff (hsteady.keeps hinto) hgone hgone'
  | cons s parents ih =>
    rw [cut_cons, into?_prune hv fun _ _ => hsteady.keeps, List.cons_append, place?]
    cases hinto : v.into? s with
    | none => rw [Option.bind_none, Option.bind_none, also_none]
    | some e =>
      obtain ⟨step, part⟩ := e
      have hpart := (into?_eq_some.mp hinto).2
      have hoff (other : Step) (h : other ≠ step) :=
        also_off gone (part.place? (parents ++ [leaf])) h
      rw [Option.bind_some, Option.bind_some]
      cases hgone : gone [step] with
      | true => exact (prune_of_gone hv hpart hoff hgone (by simp [also, hgone])).symm
      | false =>
        -- the way goes on below this step, so the step itself is not gone
        have hgone' : also gone ((part.place? (parents ++ [leaf])).map (step :: ·)) [step] =
            false := by
          cases hplace : part.place? (parents ++ [leaf]) with
          | none => simp [also, hgone]
          | some l =>
            have hlength := length_of_place? hplace
            cases l with
            | nil => simp at hlength
            | cons _ _ => simp [also, hgone]
        have hcut := ih (wellFormed_of_part? hv hpart) (hsteady.under hinto)
        rw [← under_also] at hcut
        rw [← putPart_prune hv hpart hoff (hsteady.keeps hinto) hgone hgone', ← hcut]
        rfl

end Cut
end DocBase.Value
