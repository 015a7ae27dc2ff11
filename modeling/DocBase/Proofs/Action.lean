import Mathlib.Logic.Basic

/-! Operations over a state, and what is known of them from what is known of their steps:
side by side from two states, or alone next to a state that stays. -/
namespace DocBase

variable {ε σ τ α β γ δ : Type}

theorem bind_eq_ok {x : Except ε α} {f : α → Except ε β} {b : β} (h : x >>= f = .ok b) :
    ∃ a, x = .ok a ∧ f a = .ok b := by
  cases x with
  | error e => cases h
  | ok a => exact ⟨a, rfl, h⟩

theorem bind_eq_error {x : Except ε α} {f : α → Except ε β} {e : ε} (h : x >>= f = .error e) :
    x = .error e ∨ ∃ a, x = .ok a ∧ f a = .error e := by
  cases x with
  | error e' => exact Or.inl (congrArg Except.error (Except.error.inj h))
  | ok a => exact Or.inr ⟨a, rfl, h⟩

theorem map_eq_ok {x : Except ε α} {f : α → β} {b : β} (h : x.map f = .ok b) :
    ∃ a, x = .ok a ∧ f a = b := by
  cases x with
  | error e => cases h
  | ok a => exact ⟨a, rfl, Except.ok.inj h⟩

theorem eq_ok_of_toOption {x : Except ε α} {a : α} (h : x.toOption = some a) : x = .ok a := by
  cases x with
  | error e => cases h
  | ok b => exact congrArg Except.ok (Option.some.inj h)

theorem exists_of_toOption_map {x : Except ε α} {f : α → β} {b : β}
    (h : x.toOption.map f = some b) : ∃ a, x = .ok a ∧ f a = b := by
  obtain ⟨a, ha, hb⟩ := Option.map_eq_some_iff.mp h
  exact ⟨a, eq_ok_of_toOption ha, hb⟩

theorem forM_eq_ok {f : α → Except ε Unit} {xs : List α} (h : xs.forM f = .ok ()) :
    ∀ x ∈ xs, f x = .ok () := by
  induction xs with
  | nil => exact fun x hx => absurd hx List.not_mem_nil
  | cons y ys ih =>
    change (f y >>= fun _ => ys.forM f) = .ok () at h
    cases hy : f y with
    | error e => rw [hy] at h; cases h
    | ok u =>
      rw [hy] at h
      intro x hx
      rcases List.mem_cons.mp hx with rfl | hx
      · exact hy
      · exact ih h x hx

theorem map_eq_error_iff {x : Except ε α} {f : α → β} {e : ε} :
    f <$> x = .error e ↔ x = .error e := by
  cases x with
  | ok a => exact iff_of_false nofun nofun
  | error e' =>
    exact ⟨fun h => congrArg Except.error (Except.error.inj h),
      fun h => congrArg Except.error (Except.error.inj h)⟩

/-- The first failure comes out, after elements that all pass. -/
theorem forM_eq_error_iff {f : α → Except ε Unit} {xs : List α} {e : ε} :
    xs.forM f = .error e ↔ ∃ before x after, xs = before ++ x :: after ∧
      (∀ b ∈ before, f b = .ok ()) ∧ f x = .error e := by
  induction xs with
  | nil =>
    constructor
    · exact nofun
    · rintro ⟨before, x, after, hxs, -⟩
      cases before <;> cases hxs
  | cons y ys ih =>
    change (f y >>= fun _ => ys.forM f) = .error e ↔ _
    cases hy : f y with
    | error e' =>
      constructor
      · exact fun h => ⟨[], y, ys, rfl, nofun, hy.trans h⟩
      · rintro ⟨_ | ⟨b, before⟩, x, after, hxs, hbefore, hx⟩ <;> cases hxs
        · exact hy.symm.trans hx
        · have hok := hbefore y List.mem_cons_self
          rw [hy] at hok
          cases hok
    | ok u =>
      change ys.forM f = .error e ↔ _
      rw [ih]
      constructor
      · rintro ⟨before, x, after, rfl, hbefore, hx⟩
        exact ⟨y :: before, x, after, rfl, List.forall_mem_cons.mpr ⟨hy, hbefore⟩, hx⟩
      · rintro ⟨_ | ⟨b, before⟩, x, after, hxs, hbefore, hx⟩ <;> cases hxs
        · rw [hy] at hx
          cases hx
        · exact ⟨before, x, after, rfl, (List.forall_mem_cons.mp hbefore).2, hx⟩

theorem bind_of_ok {x : ExceptT ε (StateM σ) α} {s s' : σ} {a : α} (h : x s = (.ok a, s'))
    (f : α → ExceptT ε (StateM σ) β) : (x >>= f) s = f a s' := by
  change (match x s with | (r, t) => ExceptT.bindCont f r t) = _
  rw [h]
  rfl

theorem bind_of_error {x : ExceptT ε (StateM σ) α} {s s' : σ} {e : ε} (h : x s = (.error e, s'))
    (f : α → ExceptT ε (StateM σ) β) : (x >>= f) s = (.error e, s') := by
  change (match x s with | (r, t) => ExceptT.bindCont f r t) = _
  rw [h]
  rfl

/-- Both fail alike, or both succeed with answers that go together. -/
def SameOutcome (Q : α → β → Prop) : Except ε α → Except ε β → Prop
  | .ok a, .ok b => Q a b
  | .error e, .error e' => e = e'
  | _, _ => False

namespace SameOutcome
variable {Q : α → β → Prop}

theorem map {Q' : γ → δ → Prop} {r : Except ε α} {r' : Except ε β} (h : SameOutcome Q r r')
    {f : α → γ} {g : β → δ} (hQ : ∀ a b, Q a b → Q' (f a) (g b)) :
    SameOutcome Q' (r.map f) (r'.map g) := by
  cases r with
  | ok a =>
    cases r' with
    | ok b => exact hQ a b h
    | error e => exact h
  | error e =>
    cases r' with
    | ok b => exact h
    | error e' => exact h

theorem mono {Q' : α → β → Prop} {r : Except ε α} {r' : Except ε β} (h : SameOutcome Q r r')
    (hQ : ∀ a b, Q a b → Q' a b) : SameOutcome Q' r r' := by
  have hmap := h.map (f := id) (g := id) hQ
  rwa [Except.map_id, Except.map_id] at hmap

theorem mapError {ε' : Type} {r : Except ε α} {r' : Except ε β} (h : SameOutcome Q r r')
    (f : ε → ε') : SameOutcome Q (r.mapError f) (r'.mapError f) := by
  cases r with
  | ok a =>
    cases r' with
    | ok b => exact h
    | error e => exact h.elim
  | error e =>
    cases r' with
    | ok b => exact h.elim
    | error e' => exact congrArg f h

theorem of_eq {P : α → Prop} {r r' : Except ε α} (h : r = r') (hP : ∀ a, r = .ok a → P a) :
    SameOutcome (fun a b => a = b ∧ P a) r r' := by
  subst h
  cases r with
  | ok a => exact ⟨rfl, hP a rfl⟩
  | error e => exact rfl

theorem eq {r r' : Except ε α} (h : SameOutcome Eq r r') : r = r' := by
  cases r with
  | ok a =>
    cases r' with
    | ok b => exact congrArg Except.ok h
    | error e => exact h.elim
  | error e =>
    cases r' with
    | ok b => exact h.elim
    | error e' => exact congrArg Except.error h

theorem refl (r : Except ε α) : SameOutcome Eq r r := by cases r <;> rfl

theorem post {P : α → Prop} {r r' : Except ε α}
    (h : SameOutcome (fun a b => a = b ∧ P a) r r') {a : α} (ha : r = .ok a) : P a := by
  subst ha
  cases r' with
  | ok b => exact h.2
  | error e => exact h.elim

end SameOutcome

/-- From related states both operations have the same outcome, up to how their answers go
together, and leave related states. -/
def Relates (R : σ → τ → Prop) (x : ExceptT ε (StateM σ) α) (y : ExceptT ε (StateM τ) β)
    (Q : α → β → Prop) : Prop :=
  ∀ s t, R s t → SameOutcome Q (x s).1 (y t).1 ∧ R (x s).2 (y t).2

namespace Relates
variable {R : σ → τ → Prop} {x : ExceptT ε (StateM σ) α} {y : ExceptT ε (StateM τ) β}
  {Q : α → β → Prop}

theorem pure {a : α} {b : β} (h : Q a b) :
    Relates R (Pure.pure a : ExceptT ε (StateM σ) α) (Pure.pure b) Q :=
  fun _ _ hst => ⟨h, hst⟩

theorem throw (e : ε) : Relates R (throw e : ExceptT ε (StateM σ) α) (throw e) Q :=
  fun _ _ hst => ⟨rfl, hst⟩

/-- A step that touches no state. -/
theorem lift {r : Except ε α} {r' : Except ε β} (h : SameOutcome Q r r') :
    Relates R (liftM r : ExceptT ε (StateM σ) α) (liftM r') Q :=
  fun _ _ hst => ⟨h, hst⟩

theorem get : Relates R (get : ExceptT ε (StateM σ) σ) (get : ExceptT ε (StateM τ) τ) R :=
  fun _ _ hst => ⟨hst, hst⟩

theorem set {s : σ} {t : τ} (h : R s t) :
    Relates R (set s : ExceptT ε (StateM σ) PUnit) (set t) Eq :=
  fun _ _ _ => ⟨rfl, h⟩

theorem modify {f : σ → σ} {g : τ → τ} (h : ∀ s t, R s t → R (f s) (g t)) :
    Relates R (modify f : ExceptT ε (StateM σ) PUnit) (modify g) Eq :=
  fun s t hst => ⟨rfl, h s t hst⟩

/-- However the first operation got there, its outcomes and states are all that the second one
is about. -/
theorem after {Q' : γ → δ → Prop} {f : α → ExceptT ε (StateM σ) γ}
    {g : β → ExceptT ε (StateM τ) δ} {s : σ} {t : τ}
    (h : SameOutcome Q (x s).1 (y t).1 ∧ R (x s).2 (y t).2)
    (hf : ∀ a b, Q a b → Relates R (f a) (g b) Q') :
    SameOutcome Q' ((x >>= f) s).1 ((y >>= g) t).1 ∧ R ((x >>= f) s).2 ((y >>= g) t).2 := by
  obtain ⟨hout, hstates⟩ := h
  change SameOutcome Q' (ExceptT.bindCont f (x s).1 (x s).2).1
      (ExceptT.bindCont g (y t).1 (y t).2).1 ∧
    R (ExceptT.bindCont f (x s).1 (x s).2).2 (ExceptT.bindCont g (y t).1 (y t).2).2
  generalize (x s).1 = r at hout
  generalize (y t).1 = r' at hout
  cases r with
  | ok a =>
    cases r' with
    | ok b => exact hf a b hout _ _ hstates
    | error e => exact hout.elim
  | error e =>
    cases r' with
    | ok b => exact hout.elim
    | error e' => exact ⟨hout, hstates⟩

theorem bind {Q' : γ → δ → Prop} {f : α → ExceptT ε (StateM σ) γ} {g : β → ExceptT ε (StateM τ) δ}
    (h : Relates R x y Q) (hf : ∀ a b, Q a b → Relates R (f a) (g b) Q') :
    Relates R (x >>= f) (y >>= g) Q' :=
  fun s t hst => after (h s t hst) hf

end Relates

/-- One operation after another, also after one that fails; the first failure comes out. -/
def inTurn (f : γ → ExceptT ε (StateM σ) PUnit) (xs : List γ) : ExceptT ε (StateM σ) PUnit :=
  fun s => xs.foldl (fun acc x => (acc.1.bind fun _ => (f x acc.2).1, (f x acc.2).2)) (.ok (), s)

/-- What is left to do may stand in the relation. -/
theorem Relates.inTurn_of_left {R : List γ → σ → τ → Prop}
    {f : γ → ExceptT ε (StateM σ) PUnit} {g : γ → ExceptT ε (StateM τ) PUnit}
    (h : ∀ x rest s t, R (x :: rest) s t →
      SameOutcome Eq (f x s).1 (g x t).1 ∧ R rest (f x s).2 (g x t).2)
    {xs : List γ} {s : σ} {t : τ} (hst : R xs s t) :
    SameOutcome Eq (inTurn f xs s).1 (inTurn g xs t).1 ∧
      R [] (inTurn f xs s).2 (inTurn g xs t).2 := by
  have hfold : ∀ (r : Except ε PUnit) (s : σ) (t : τ), R xs s t →
      SameOutcome Eq
        (xs.foldl (fun acc x => (acc.1.bind fun _ => (f x acc.2).1, (f x acc.2).2)) (r, s)).1
        (xs.foldl (fun acc x => (acc.1.bind fun _ => (g x acc.2).1, (g x acc.2).2)) (r, t)).1 ∧
      R [] (xs.foldl (fun acc x => (acc.1.bind fun _ => (f x acc.2).1, (f x acc.2).2)) (r, s)).2
        (xs.foldl (fun acc x => (acc.1.bind fun _ => (g x acc.2).1, (g x acc.2).2)) (r, t)).2 := by
    clear hst
    induction xs with
    | nil =>
      intro r s t hst
      exact ⟨.refl r, hst⟩
    | cons x rest ih =>
      intro r s t hst
      obtain ⟨hout, hstates⟩ := h x rest s t hst
      rw [List.foldl_cons, List.foldl_cons, hout.eq]
      exact ih _ _ _ hstates
  exact hfold (.ok ()) s t hst

theorem Relates.inTurn {R : σ → τ → Prop} {f : γ → ExceptT ε (StateM σ) PUnit}
    {g : γ → ExceptT ε (StateM τ) PUnit} (h : ∀ x, Relates R (f x) (g x) Eq) (xs : List γ) :
    Relates R (inTurn f xs) (inTurn g xs) Eq :=
  fun _ _ hst => Relates.inTurn_of_left (R := fun _ => R) (fun x _ s t hst => h x s t hst) hst

/-- An operation that leaves each state related to whatever it was related to before. -/
def Silent (R : σ → τ → Prop) (x : ExceptT ε (StateM σ) α) : Prop :=
  ∀ s t, R s t → R (x s).2 t

namespace Silent
variable {R : σ → τ → Prop} {x : ExceptT ε (StateM σ) α}

theorem pure (a : α) : Silent R (Pure.pure a : ExceptT ε (StateM σ) α) := fun _ _ hst => hst

theorem lift (r : Except ε α) : Silent R (liftM r : ExceptT ε (StateM σ) α) := fun _ _ hst => hst

theorem get_bind {f : σ → ExceptT ε (StateM σ) α} (h : ∀ s, Silent R (f s)) :
    Silent R (get >>= f) := fun s t hst => h s s t hst

theorem modify {f : σ → σ} (h : ∀ s t, R s t → R (f s) t) :
    Silent R (modify f : ExceptT ε (StateM σ) PUnit) := fun s t hst => h s t hst

theorem after {f : α → ExceptT ε (StateM σ) β} (hf : ∀ a, Silent R (f a)) {s : σ} {t : τ}
    (h : R (x s).2 t) : R ((x >>= f) s).2 t := by
  change R (ExceptT.bindCont f (x s).1 (x s).2).2 t
  cases (x s).1 with
  | ok a => exact hf a _ t h
  | error e => exact h

theorem bind {f : α → ExceptT ε (StateM σ) β} (h : Silent R x) (hf : ∀ a, Silent R (f a)) :
    Silent R (x >>= f) := fun s t hst => after hf (h s t hst)

end Silent
end DocBase
