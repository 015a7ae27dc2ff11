import DocBase.Query.Predicate
import Mathlib.Data.List.Basic

/-! Normalizing a predicate keeps what it holds of and leaves a normal form, in which there is
nothing more to do. Conjunctions and disjunctions mirror each other, so that what is proved of one
is proved of both: `junction true` is a conjunction, and the other a disjunction. -/
namespace DocBase.Predicate

variable {p q : Predicate} {ps : List Predicate} {d : Document}

/-- What holds of a predicate when it holds of all its parts. -/
theorem induction {P : Predicate → Prop} (const : ∀ b, P (const b))
    (field : ∀ name t, P (field name t)) (all : ∀ ps, (∀ p ∈ ps, P p) → P (all ps))
    (any : ∀ ps, (∀ p ∈ ps, P p) → P (any ps)) (not : ∀ p, P p → P (not p)) : ∀ p, P p :=
  @Predicate.rec P (fun ps => ∀ p ∈ ps, P p) const field all any not
    (fun _ h => absurd h List.not_mem_nil) (fun _ _ hp hps => List.forall_mem_cons.mpr ⟨hp, hps⟩)

def junction : Bool → List Predicate → Predicate
  | true => all
  | false => any

theorem holdsAll_iff : holdsAll d ps ↔ ∀ p ∈ ps, p.holds d := by
  induction ps with
  | nil => simp [holdsAll]
  | cons p rest ih => simp [holdsAll, ih]

theorem holdsAny_iff : holdsAny d ps ↔ ∃ p ∈ ps, p.holds d := by
  induction ps with
  | nil => simp [holdsAny]
  | cons p rest ih => simp [holdsAny, ih]

/-- A conjunction is true, and a disjunction false, if all parts are. -/
theorem holds_junction (b : Bool) (ps : List Predicate) :
    (junction b ps).holds d = b ↔ ∀ p ∈ ps, p.holds d = b := by
  cases b with
  | true =>
    rw [junction, holds]
    exact holdsAll_iff
  | false =>
    rw [junction, holds, ← Bool.not_eq_true, holdsAny_iff]
    simp

theorem normalizeList_eq (ps : List Predicate) : normalizeList ps = ps.map normalize := by
  induction ps with
  | nil => rfl
  | cons p rest ih => rw [normalizeList, ih, List.map_cons]

/-! ## Joining normal parts -/

/-- A part of a junction as the parts that it contributes. -/
def opened (b : Bool) : Predicate → List Predicate
  | const _ => []
  | all inner => if b then inner else [all inner]
  | any inner => if b then [any inner] else inner
  | p => [p]

def joined (b : Bool) : List Predicate → Predicate
  | [] => const b
  | [p] => p
  | ps => junction b ps

def mkJunction : Bool → List Predicate → Predicate
  | true => mkAll
  | false => mkAny

theorem mkJunction_of_mem {b : Bool} (h : const (!b) ∈ ps) : mkJunction b ps = const (!b) := by
  cases b with
  | true =>
    rw [mkJunction, mkAll]
    exact if_pos (List.any_eq_true.mpr ⟨_, h, rfl⟩)
  | false =>
    rw [mkJunction, mkAny]
    exact if_pos (List.any_eq_true.mpr ⟨_, h, rfl⟩)

theorem mkJunction_of_notMem {b : Bool} (h : const (!b) ∉ ps) :
    mkJunction b ps = joined b (ps.flatMap (opened b)) := by
  cases b with
  | true =>
    rw [mkJunction, mkAll]
    split
    next hany =>
      obtain ⟨p, hp, hfalse⟩ := List.any_eq_true.mp hany
      cases p with
      | const c => cases c with
        | true => cases hfalse
        | false => exact absurd hp h
      | _ => cases hfalse
    · extract_lets flat
      have hflat : flat = ps.flatMap (opened true) :=
        congrArg ps.flatMap (funext fun p => by cases p <;> rfl)
      rw [hflat]
      cases ps.flatMap (opened true) with
      | nil => rfl
      | cons p rest => cases rest <;> rfl
  | false =>
    rw [mkJunction, mkAny]
    split
    next hany =>
      obtain ⟨p, hp, htrue⟩ := List.any_eq_true.mp hany
      cases p with
      | const c => cases c with
        | false => cases htrue
        | true => exact absurd hp h
      | _ => cases htrue
    · extract_lets flat
      have hflat : flat = ps.flatMap (opened false) :=
        congrArg ps.flatMap (funext fun p => by cases p <;> rfl)
      rw [hflat]
      cases ps.flatMap (opened false) with
      | nil => rfl
      | cons p rest => cases rest <;> rfl

/-- A part that is no constant and no junction of the kind contributes itself. -/
theorem opened_cases (b : Bool) (p : Predicate) : (∃ c, p = const c ∧ opened b p = []) ∨
    (∃ inner, p = junction b inner ∧ opened b p = inner) ∨
    (∀ c, p ≠ const c) ∧ (∀ inner, p ≠ junction b inner) ∧ opened b p = [p] := by
  cases p with
  | const c => exact Or.inl ⟨c, rfl, rfl⟩
  | all inner =>
    cases b with
    | true => exact Or.inr (Or.inl ⟨inner, rfl, rfl⟩)
    | false => exact Or.inr (Or.inr ⟨nofun, nofun, rfl⟩)
  | any inner =>
    cases b with
    | true => exact Or.inr (Or.inr ⟨nofun, nofun, rfl⟩)
    | false => exact Or.inr (Or.inl ⟨inner, rfl, rfl⟩)
  | field name t =>
    refine Or.inr (Or.inr ⟨nofun, fun inner h => ?_, rfl⟩)
    cases b <;> cases h
  | not q =>
    refine Or.inr (Or.inr ⟨nofun, fun inner h => ?_, rfl⟩)
    cases b <;> cases h

/-! ## What a predicate holds of -/

theorem holds_joined (b : Bool) (ps : List Predicate) :
    (joined b ps).holds d = b ↔ ∀ p ∈ ps, p.holds d = b := by
  match ps with
  | [] => simp [joined, holds]
  | [p] => simp [joined]
  | p :: q :: rest => exact holds_junction b (p :: q :: rest)

theorem holds_opened {b : Bool} (h : p ≠ const (!b)) :
    (∀ q ∈ opened b p, q.holds d = b) ↔ p.holds d = b := by
  rcases opened_cases b p with ⟨c, rfl, hopened⟩ | ⟨inner, rfl, hopened⟩ | ⟨-, -, hopened⟩
  · have hc : c = b := by
      cases c <;> cases b <;> simp_all
    rw [hopened, holds]
    simpa using hc
  · rw [hopened, holds_junction]
  · simp [hopened]

theorem holds_mkJunction (b : Bool) (ps : List Predicate) :
    (mkJunction b ps).holds d = b ↔ ∀ p ∈ ps, p.holds d = b := by
  by_cases h : const (!b) ∈ ps
  · rw [mkJunction_of_mem h]
    refine iff_of_false (by simp [holds]) fun hall => ?_
    simpa [holds] using hall _ h
  · rw [mkJunction_of_notMem h, holds_joined]
    simp only [List.forall_mem_flatMap]
    exact forall₂_congr fun p hp => holds_opened fun hconst => h (hconst ▸ hp)

theorem holds_mkNot (p : Predicate) : (mkNot p).holds d = !p.holds d := by
  cases p <;> simp [mkNot, holds]

/-- A junction of normalized parts stands for the junction of the parts. -/
theorem holds_normalize_junction (b : Bool) (ih : ∀ p ∈ ps, p.normalize.holds d = p.holds d) :
    (mkJunction b (normalizeList ps)).holds d = (junction b ps).holds d := by
  have hbool : ∀ x y : Bool, (x = b ↔ y = b) → x = y := by cases b <;> decide
  refine hbool _ _ ?_
  rw [holds_mkJunction, holds_junction, normalizeList_eq, List.forall_mem_map]
  exact forall₂_congr fun p hp => by rw [ih p hp]

/-- Normalizing keeps what a predicate holds of. -/
theorem holds_normalize (d : Document) (p : Predicate) : p.normalize.holds d = p.holds d := by
  induction p using induction with
  | const b => rfl
  | field name t => rfl
  | all ps ih => exact holds_normalize_junction true ih
  | any ps ih => exact holds_normalize_junction false ih
  | not p ih => rw [normalize, holds_mkNot, ih, holds]

/-! ## Normal forms -/

/-- The first stands somewhere in the second, which stands in itself. -/
inductive Within : Predicate → Predicate → Prop
  | self (p : Predicate) : Within p p
  | all {q p : Predicate} {ps : List Predicate} (hp : p ∈ ps) (h : Within q p) : Within q (all ps)
  | any {q p : Predicate} {ps : List Predicate} (hp : p ∈ ps) (h : Within q p) : Within q (any ps)
  | not {q p : Predicate} (h : Within q p) : Within q (not p)

/-- Conjunctions and disjunctions have two parts at least and none of their own kind, what is
negated is no negation, and a constant is the whole predicate. -/
structure Normal (p : Predicate) : Prop where
  all_flat : ∀ ps, Within (all ps) p → 2 ≤ ps.length ∧ ∀ qs, all qs ∉ ps
  any_flat : ∀ ps, Within (any ps) p → 2 ≤ ps.length ∧ ∀ qs, any qs ∉ ps
  not_flat : ∀ q, ¬ Within (not (not q)) p
  const_whole : ∀ b, Within (const b) p → p = const b

theorem within_junction {b : Bool} : Within q (junction b ps) ↔
    q = junction b ps ∨ ∃ p ∈ ps, Within q p := by
  cases b with
  | true =>
    constructor
    · rintro (_ | ⟨hp, h⟩)
      · exact Or.inl rfl
      · exact Or.inr ⟨_, hp, h⟩
    · rintro (rfl | ⟨p, hp, h⟩)
      · exact .self _
      · exact .all hp h
  | false =>
    constructor
    · rintro (_ | _ | ⟨hp, h⟩)
      · exact Or.inl rfl
      · exact Or.inr ⟨_, hp, h⟩
    · rintro (rfl | ⟨p, hp, h⟩)
      · exact .self _
      · exact .any hp h

theorem Within.trans (h : Within p q) {r : Predicate} (hqr : Within q r) : Within p r := by
  induction hqr with
  | self => exact h
  | all hp _ ih => exact .all hp ih
  | any hp _ ih => exact .any hp ih
  | not _ ih => exact .not ih

theorem within_part {b : Bool} (hp : p ∈ ps) : Within p (junction b ps) :=
  within_junction.mpr (Or.inr ⟨p, hp, .self p⟩)

namespace Normal

theorem flat (h : p.Normal) (b : Bool) (hps : Within (junction b ps) p) :
    2 ≤ ps.length ∧ ∀ qs, junction b qs ∉ ps := by
  cases b with
  | true => exact h.all_flat ps hps
  | false => exact h.any_flat ps hps

theorem const (b : Bool) : (const b).Normal where
  all_flat := fun _ h => nomatch h
  any_flat := fun _ h => nomatch h
  not_flat := fun _ h => nomatch h
  const_whole := fun _ h => by cases h; rfl

theorem field (name : String) (t : Test) : (field name t).Normal where
  all_flat := fun _ h => nomatch h
  any_flat := fun _ h => nomatch h
  not_flat := fun _ h => nomatch h
  const_whole := fun _ h => nomatch h

/-- What stands in a normal predicate is normal. -/
theorem within (h : p.Normal) (hq : Within q p) : q.Normal where
  all_flat := fun ps hps => h.all_flat ps (hps.trans hq)
  any_flat := fun ps hps => h.any_flat ps (hps.trans hq)
  not_flat := fun r hr => h.not_flat r (hr.trans hq)
  const_whole := fun b hb => by
    rw [h.const_whole b (hb.trans hq)] at hq
    cases hq
    rfl

/-- What may stand in a junction of the kind. -/
structure Fits (b : Bool) (p : Predicate) : Prop where
  normal : p.Normal
  no_const : ∀ c, p ≠ .const c
  other_kind : ∀ qs, p ≠ junction b qs

theorem fits {b : Bool} (h : (junction b ps).Normal) (hp : p ∈ ps) : Fits b p where
  normal := h.within (within_part hp)
  no_const := by
    rintro c rfl
    have hwhole := h.const_whole c (within_part hp)
    cases b <;> cases hwhole
  other_kind := by
    rintro qs rfl
    exact (h.flat b (.self _)).2 qs hp

theorem junction {b : Bool} (hlength : 2 ≤ ps.length) (hps : ∀ p ∈ ps, Fits b p) :
    (junction b ps).Normal := by
  have hflat : ∀ c qs, Within (Predicate.junction c qs) (Predicate.junction b ps) →
      2 ≤ qs.length ∧ ∀ rs, Predicate.junction c rs ∉ qs := by
    intro c qs h
    rcases within_junction.mp h with heq | ⟨p, hp, hwithin⟩
    · have hsame : c = b ∧ qs = ps := by
        cases c <;> cases b <;> cases heq <;> exact ⟨rfl, rfl⟩
      obtain ⟨rfl, rfl⟩ := hsame
      exact ⟨hlength, fun rs hrs => (hps _ hrs).other_kind rs rfl⟩
    · exact (hps p hp).normal.flat c hwithin
  refine ⟨hflat true, hflat false, fun q h => ?_, fun c h => ?_⟩
  · rcases within_junction.mp h with heq | ⟨p, hp, hwithin⟩
    · cases b <;> cases heq
    · exact (hps p hp).normal.not_flat q hwithin
  · rcases within_junction.mp h with heq | ⟨p, hp, hwithin⟩
    · cases b <;> cases heq
    · exact absurd ((hps p hp).normal.const_whole c hwithin) ((hps p hp).no_const c)

theorem joined {b : Bool} (hps : ∀ p ∈ ps, Fits b p) : (joined b ps).Normal :=
  match ps, hps with
  | [], _ => const b
  | [p], hps => (hps p List.mem_cons_self).normal
  | _ :: _ :: _, hps => junction (Nat.le_add_left _ _) hps

theorem fits_of_mem_opened {b : Bool} (h : p.Normal) (hq : q ∈ opened b p) : Fits b q := by
  rcases opened_cases b p with ⟨c, rfl, hopened⟩ | ⟨inner, rfl, hopened⟩ | ⟨hconst, hkind, hopened⟩
  · rw [hopened] at hq
    cases hq
  · exact h.fits (hopened ▸ hq)
  · rw [hopened, List.mem_singleton] at hq
    subst hq
    exact ⟨h, hconst, hkind⟩

theorem mkJunction {b : Bool} (hps : ∀ p ∈ ps, p.Normal) : (mkJunction b ps).Normal := by
  by_cases h : Predicate.const (!b) ∈ ps
  · rw [mkJunction_of_mem h]
    exact const _
  · rw [mkJunction_of_notMem h]
    refine joined fun q hq => ?_
    obtain ⟨p, hp, hq⟩ := List.mem_flatMap.mp hq
    exact (hps p hp).fits_of_mem_opened hq

theorem not (h : p.Normal) (hconst : ∀ b, p ≠ .const b) (hnot : ∀ q, p ≠ .not q) :
    (not p).Normal where
  all_flat := fun ps hps => by
    cases hps with
    | not hps => exact h.all_flat ps hps
  any_flat := fun ps hps => by
    cases hps with
    | not hps => exact h.any_flat ps hps
  not_flat := fun q hq => by
    cases hq with
    | self => exact hnot q rfl
    | not hq => exact h.not_flat q hq
  const_whole := fun b hb => by
    cases hb with
    | not hb => exact absurd (h.const_whole b hb) (hconst b)

theorem mkNot (h : p.Normal) : (mkNot p).Normal := by
  cases p with
  | const b => exact const _
  | field name t => exact h.not nofun nofun
  | all ps => exact h.not nofun nofun
  | any ps => exact h.not nofun nofun
  | not q => exact h.within (.not (.self q))

end Normal

theorem normal_normalize (p : Predicate) : p.normalize.Normal := by
  have hparts : ∀ {b : Bool} {ps : List Predicate}, (∀ p ∈ ps, p.normalize.Normal) →
      (mkJunction b (normalizeList ps)).Normal := fun ih => by
    refine Normal.mkJunction ?_
    rwa [normalizeList_eq, List.forall_mem_map]
  induction p using induction with
  | const b => exact Normal.const b
  | field name t => exact Normal.field name t
  | all ps ih => exact hparts (b := true) ih
  | any ps ih => exact hparts (b := false) ih
  | not p ih => exact ih.mkNot

/-- Normal parts that fit a junction make it up as they are. -/
theorem mkJunction_of_normal {b : Bool} (h : (junction b ps).Normal) :
    mkJunction b ps = junction b ps := by
  have hconst : const (!b) ∉ ps := fun hmem => (h.fits hmem).no_const _ rfl
  have hself : ∀ p ∈ ps, opened b p = [p] := by
    intro p hp
    rcases opened_cases b p with ⟨c, rfl, -⟩ | ⟨inner, rfl, -⟩ | ⟨-, -, hopened⟩
    · exact absurd rfl ((h.fits hp).no_const c)
    · exact absurd rfl ((h.fits hp).other_kind inner)
    · exact hopened
  have hflat : ps.flatMap (opened b) = ps := by
    rw [List.flatMap_congr hself, List.flatMap_singleton']
  rw [mkJunction_of_notMem hconst, hflat]
  match ps, (h.flat b (.self _)).1 with
  | _ :: _ :: _, _ => rfl

theorem normalize_of_normal (h : p.Normal) : p.normalize = p := by
  have hparts : ∀ {b : Bool} {ps : List Predicate}, (∀ p ∈ ps, p.Normal → p.normalize = p) →
      (junction b ps).Normal → mkJunction b (normalizeList ps) = junction b ps := by
    intro b ps ih h
    have hlist : ps.map normalize = ps.map id :=
      List.map_congr_left fun p hp => ih p hp (h.fits hp).normal
    rw [normalizeList_eq, hlist, List.map_id, mkJunction_of_normal h]
  induction p using induction with
  | const b => rfl
  | field name t => rfl
  | all ps ih => exact hparts (b := true) ih h
  | any ps ih => exact hparts (b := false) ih h
  | not p ih =>
    rw [normalize, ih (h.within (.not (.self p)))]
    cases p with
    | const b => cases h.const_whole b (.not (.self _))
    | not q => exact absurd (.self _) (h.not_flat q)
    | _ => rfl

end DocBase.Predicate
