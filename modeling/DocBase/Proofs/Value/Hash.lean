import DocBase.Proofs.Number.Whole
import DocBase.Proofs.Value.TotalOrder
import DocBase.Value.Hash

/-! Values that are equal under the order hash alike, at any depth, and so a hash table finds
under one spelling of a number what was put in under another. -/
namespace DocBase
open Keyed

/-! ## Numbers -/
namespace Binary64
variable {x y : Binary64}

theorem isIntegral_of_rank (h : x.rank = y.rank) : x.isIntegral = y.isIntegral := by
  rw [isIntegral, isIntegral, isFinite, isFinite, magnitude_of_rank h]

end Binary64

namespace Value
variable {n : Int64} {x y : Binary64}

/-- What a whole number of 64 bits is rounded to hashes as the whole number that it truncates
to. -/
theorem hashNumber_of_rounded (h : (Binary64.ofInt n.toInt).rank = x.rank) :
    hashNumber x = .integer x.truncate := by
  have hfinite : (Binary64.ofInt n.toInt).isFinite :=
    Binary64.isFinite_ofInt ((natAbs_toInt_le n).trans (by decide))
  obtain ⟨r, -, hunits⟩ := Binary64.exists_units_ofInt (natAbs_toInt_le n)
  have hintegral : x.isIntegral := by
    rw [← Binary64.isIntegral_of_rank h]
    exact Binary64.isIntegral_of_units hfinite hunits
  rw [hashNumber, if_pos]
  rw [← h]
  exact ⟨hintegral, Binary64.rank_ofInt_le n.minValue_le_toInt, Binary64.rank_ofInt_le n.toInt_le⟩

theorem hashNumber_of_compareIntFloat (h : compareIntFloat n x = .eq) :
    hashNumber x = .integer n := by
  obtain ⟨hrank, hwhole⟩ := Ordering.then_eq_eq.mp h
  rw [hashNumber_of_rounded (compare_eq_iff_eq.mp hrank),
    Int64.toInt_inj.mp (compare_eq_iff_eq.mp hwhole)]

/-- Only the zeros share a place in the order, and both are whole. -/
theorem hashNumber_of_rank (h : x.rank = y.rank) : hashNumber x = hashNumber y := by
  rcases Binary64.eq_or_zeros_of_rank h with rfl | ⟨hx, hy⟩
  · rfl
  · have hzero : (Binary64.ofInt (0 : Int64).toInt).rank = 0 := rfl
    rw [hashNumber_of_rounded (hzero.trans hx.symm), hashNumber_of_rounded (hzero.trans hy.symm),
      Binary64.truncate_of_rank h]

/-! ## Values of any depth -/

theorem typeRank_eq_of_compare {a b : Value} (h : Value.compare a b = .eq) :
    a.typeRank = b.typeRank := by
  refine Nat.le_antisymm (rank_le_of_compare (by rw [h]; decide)) (rank_le_of_compare ?_)
  rw [← compare_swap, h]
  decide

mutual

theorem hashItems_of_compare : ∀ {a b : Value}, Value.compare a b = .eq →
    a.hashItems = b.hashItems
  | null, b, h => by
    have hrank := typeRank_eq_of_compare h
    cases b <;> cases hrank
    rfl
  | bool x, b, h => by
    have hrank := typeRank_eq_of_compare h
    cases b <;> cases hrank
    rename_i y
    have hxy : x.toNat = y.toNat := compare_eq_iff_eq.mp h
    rw [hashItems, hashItems, hxy]
  | int n, b, h => by
    have hrank := typeRank_eq_of_compare h
    cases b <;> cases hrank
    case int m =>
      have hnm : n = m := Int64.toInt_inj.mp (compare_eq_iff_eq.mp h)
      rw [hnm]
    case float x =>
      rw [hashItems, hashItems, hashNumber_of_compareIntFloat h]
  | float x, b, h => by
    have hrank := typeRank_eq_of_compare h
    cases b <;> cases hrank
    case int m =>
      have hnumber : compareIntFloat m x = .eq := Ordering.swap_eq_eq.mp h
      rw [hashItems, hashItems, hashNumber_of_compareIntFloat hnumber]
    case float y =>
      rw [hashItems, hashItems, hashNumber_of_rank (compare_eq_iff_eq.mp h)]
  | string s, b, h => by
    have hrank := typeRank_eq_of_compare h
    cases b <;> cases hrank
    rename_i t
    have hst : s = t := Std.LawfulEqOrd.eq_of_compare h
    rw [hst]
  | array as, b, h => by
    have hrank := typeRank_eq_of_compare h
    cases b <;> cases hrank
    rename_i bs
    obtain ⟨hlength, hitems⟩ := hashElements_of_compare h
    rw [hashItems, hashItems, hlength, hitems]
  | object as, b, h => by
    have hrank := typeRank_eq_of_compare h
    cases b <;> cases hrank
    rename_i bs
    obtain ⟨hlength, hfields⟩ := hashFields_of_compare h
    rw [hashItems, hashItems, hlength, hfields]

theorem hashElements_of_compare : ∀ {as bs : List Value}, compareItems as bs = .eq →
    as.length = bs.length ∧ hashElements as = hashElements bs
  | [], [], _ => ⟨rfl, rfl⟩
  | a :: as, b :: bs, h => by
    obtain ⟨hhead, htail⟩ := Ordering.then_eq_eq.mp h
    obtain ⟨hlength, hitems⟩ := hashElements_of_compare htail
    rw [List.length_cons, List.length_cons, hlength, hashElements, hashElements,
      hashItems_of_compare hhead, hitems]
    exact ⟨rfl, rfl⟩

theorem hashFields_of_compare : ∀ {as bs : List (String × Value)}, compareFields as bs = .eq →
    as.length = bs.length ∧ hashFields as = hashFields bs
  | [], [], _ => ⟨rfl, rfl⟩
  | (k, a) :: as, (l, b) :: bs, h => by
    obtain ⟨hhead, htail⟩ := Ordering.then_eq_eq.mp h
    obtain ⟨hkey, hvalue⟩ := Ordering.then_eq_eq.mp hhead
    obtain ⟨hlength, hfields⟩ := hashFields_of_compare htail
    rw [List.length_cons, List.length_cons, hlength, hashFields, hashFields,
      Std.LawfulEqOrd.eq_of_compare hkey, hashItems_of_compare hvalue, hfields]
    exact ⟨rfl, rfl⟩

end

end Value

/-! ## Hash tables -/
namespace Value

variable {α β : Type} [DecidableEq β]

/-- An entry of a hash table with the hash of a key, and equal to it. -/
def isUnder (hash : List HashItem → β) (key : Value) (e : Value × α) : Bool :=
  hash e.1.hashItems = hash key.hashItems && e.1.same key

def probe? (hash : List HashItem → β) (key : Value) (table : List (Value × α)) : Option α :=
  (table.find? (isUnder hash key)).map Prod.snd

theorem isUnder_iff {hash : List HashItem → β} {key : Value} {e : Value × α} :
    isUnder hash key e ↔ compare key e.1 = .eq := by
  rw [isUnder, Bool.and_eq_true, decide_eq_true_eq, same_iff]
  constructor
  · exact fun h => Std.OrientedCmp.eq_symm h.2
  · intro h
    exact ⟨by rw [hashItems_of_compare h], Std.OrientedCmp.eq_symm h⟩

/-- However its entries are arranged, a hash table finds what the ordered map finds. -/
theorem probe?_eq_get? (hash : List HashItem → β) (key : Value) {m : Keyed Value α}
    (h : Ascending m) {table : List (Value × α)} (hperm : table.Perm m) :
    probe? hash key table = m.get? key := by
  rw [probe?]
  cases hfind : table.find? (isUnder hash key) with
  | none =>
    cases hget : m.get? key with
    | none => rfl
    | some v =>
      obtain ⟨k, heq, hmem⟩ := (get?_eq_some_iff h).mp hget
      have habsent := List.find?_eq_none.mp hfind (k, v) (hperm.mem_iff.mpr hmem)
      exact absurd (isUnder_iff.mpr heq) habsent
  | some e =>
    have heq := isUnder_iff.mp (List.find?_some hfind)
    have hmem := hperm.mem_iff.mp (List.mem_of_find?_eq_some hfind)
    exact ((get?_eq_some_iff h).mpr ⟨e.1, heq, hmem⟩).symm

/-- Values that are equal under the order write the same into a hash. Whatever is made of what is
written, a hash table finds the same under both, and this is what the ordered map finds. -/
theorem hashItems_of_same {a b : Value} (h : a.same b) :
    a.hashItems = b.hashItems ∧
      ∀ {α β : Type} [DecidableEq β] (hash : List HashItem → β) (m : Keyed Value α)
        (table : List (Value × α)), Ascending m → table.Perm m →
          probe? hash a table = m.get? a ∧ probe? hash b table = probe? hash a table := by
  refine ⟨hashItems_of_compare (same_iff.mp h), fun hash m table hm hperm => ?_⟩
  rw [probe?_eq_get? hash a hm hperm, probe?_eq_get? hash b hm hperm]
  exact ⟨rfl, (get?_congr (same_iff.mp h) m).symm⟩

/-- Numbers under two spellings each, within an array and an object. -/
theorem hashItems_of_spellings :
    let nan : Value := .float Binary64.nan
    let whole : Value := .object [("n", .array [.int 0, .int 9007199254740992, nan]),
      ("top", .int 9223372036854775807)]
    let floating : Value := .object
      [("n", .array [.float ⟨0x8000000000000000⟩, .float ⟨0x4340000000000000⟩, nan]),
        ("top", .float ⟨0x43E0000000000000⟩)]
    whole.same floating ∧ whole.hashItems = floating.hashItems ∧
      probe? id floating [(.null, 1), (whole, 2)] = some 2 := by
  intro nan whole floating
  have hsame : whole.same floating := by decide +kernel
  obtain ⟨hitems, hfound⟩ := hashItems_of_same hsame
  have hm : Ascending [(null, 1), (whole, 2)] := List.pairwise_pair.mpr rfl
  obtain ⟨hwhole, hfloating⟩ := hfound id [(null, 1), (whole, 2)] _ hm (List.Perm.refl _)
  refine ⟨hsame, hitems, hfloating.trans (hwhole.trans ?_)⟩
  exact get?_of_mem hm (List.mem_cons_of_mem _ List.mem_cons_self)

end Value
end DocBase
