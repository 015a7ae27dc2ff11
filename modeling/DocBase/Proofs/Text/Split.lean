import DocBase.Text.Split

/-! What cutting text at a separator gives. -/
namespace DocBase.Text
variable {sep : Char} {cs part : List Char}

theorem split_eq_splitOn (sep : Char) (cs : List Char) : split sep cs = cs.splitOn sep := by
  induction cs with
  | nil => rfl
  | cons c cs ih =>
    rw [split, List.splitOn_cons_eq_if_modifyHead, ih]
    by_cases hc : c = sep
    · simp [hc]
    · rw [if_neg hc, if_neg (by simpa using hc)]
      cases hsplit : cs.splitOn sep with
      | nil => exact absurd hsplit (List.splitOn_ne_nil sep cs)
      | cons part rest => rfl

theorem notMem_of_mem_split (h : part ∈ split sep cs) : sep ∉ part := by
  induction cs generalizing part with
  | nil =>
    rw [split, List.mem_singleton] at h
    rw [h]
    exact List.not_mem_nil
  | cons c cs ih =>
    rw [split] at h
    split at h
    next =>
      rcases List.mem_cons.mp h with rfl | h
      · exact List.not_mem_nil
      · exact ih h
    next hc =>
      split at h
      next first rest hsplit =>
        rcases List.mem_cons.mp h with rfl | h
        · rw [List.mem_cons, not_or]
          exact ⟨fun hsep => hc hsep.symm, ih (hsplit ▸ List.mem_cons_self)⟩
        · exact ih (hsplit ▸ List.mem_cons_of_mem _ h)
      next hsplit =>
        rw [List.mem_singleton.mp h, List.mem_singleton]
        exact fun hsep => hc hsep.symm

theorem split_append (before after : List Char) :
    split sep (before ++ sep :: after) = split sep before ++ split sep after := by
  rw [split_eq_splitOn, split_eq_splitOn, split_eq_splitOn, List.splitOn_append_cons_self]

theorem split_ne_nil (cs : List Char) : split sep cs ≠ [] := by
  rw [split_eq_splitOn]
  exact List.splitOn_ne_nil _ _

theorem split_of_notMem (h : sep ∉ cs) : split sep cs = [cs] := by
  rw [split_eq_splitOn, List.splitOn_eq_singleton h]

/-- The first stretch begins as the text does, but where that begins with a separator. -/
theorem head_split (sep : Char) (cs : List Char) : ∃ s rest, split sep cs = s :: rest ∧
    (s.head? = cs.head? ∨ s = [] ∧ cs.head? = some sep) := by
  cases cs with
  | nil => exact ⟨[], [], rfl, Or.inl rfl⟩
  | cons c cs =>
    rw [split]
    split
    next hc => exact ⟨[], _, rfl, Or.inr ⟨rfl, congrArg some hc⟩⟩
    next =>
      split
      · exact ⟨_, _, rfl, Or.inl rfl⟩
      · exact ⟨_, _, rfl, Or.inl rfl⟩

end DocBase.Text
