import DocBase.Proofs.Json.RoundTrip
import DocBase.Proofs.Document.Codec
import DocBase.Text.Trim

/-! The text of a JSON value is one line, and that of an object has no white space around it.
What lies in a document is printed with the names of all objects in order, so that it is
also read as it stands where the reader puts them in order. -/
namespace DocBase
open Keyed

namespace Json

/-! ## Line breaks -/

theorem ne_newline_of_isDigit {c : Char} (h : c.isDigit) : c ≠ '\n' := by
  rintro rfl
  cases h

theorem newline_notMem_numeral {n : Numeral} (h : n.WellFormed) : '\n' ∉ n.text := by
  have hexponent : '\n' ∉ Numeral.exponentText n.exponent := by
    cases n.exponent with
    | none => exact List.not_mem_nil
    | some e =>
      have hdigits : '\n' ∉ Nat.toDigits 10 e.natAbs :=
        fun hmem => ne_newline_of_isDigit (digits_toDigits _ _ hmem) rfl
      rw [Numeral.exponentText]
      split <;> simp [hdigits]
  have hfraction : '\n' ∉ Numeral.fractionText n.fraction := by
    rw [Numeral.fractionText]
    split
    · exact List.not_mem_nil
    · simp only [List.mem_cons, not_or]
      exact ⟨by decide, fun hmem => ne_newline_of_isDigit (h.fraction _ hmem) rfl⟩
  have hwhole : '\n' ∉ n.whole := fun hmem => ne_newline_of_isDigit (h.whole _ hmem) rfl
  simp [Numeral.text, hwhole, hfraction, hexponent]

theorem newline_notMem_signed (negative : Bool) {n : Numeral} (h : n.WellFormed) :
    '\n' ∉ (if negative then ['-'] else []) ++ n.text := by
  have htext := newline_notMem_numeral h
  cases negative <;> simp [htext]

theorem newline_notMem_float (x : Binary64) : '\n' ∉ (floatText x).toList := by
  by_cases hx : x.isFinite
  · obtain ⟨n, hwell, htext, -, -⟩ := exists_numeral (Decimal.shortest x.magnitude)
    rw [toList_float hx htext]
    exact newline_notMem_signed _ hwell
  · rw [floatText, if_neg hx]
    decide

theorem newline_notMem_escape (c : Char) : '\n' ∉ escape c := by
  have hhex : ∀ n < 32, '\n' ∉ (Text.hexPadded 4 n).toList := by decide
  rw [escape]
  repeat' split
  all_goals first
    | decide
    | skip
  next h => simp [hhex _ h]
  next hnewline _ _ _ _ _ => simpa [eq_comm] using hnewline

theorem newline_notMem_putString (s : String) {rest : List Char} (h : '\n' ∉ rest) :
    '\n' ∉ putString s rest := by
  simp [putString, newline_notMem_escape, h]

mutual

theorem newline_notMem_put : ∀ (j : Json) {rest : List Char}, '\n' ∉ rest → '\n' ∉ j.put rest
  | .null, rest, h => by simp [put, h]
  | .bool b, rest, h => by cases b <;> simp [put, h]
  | .int n, rest, h => by
    rw [put, List.mem_append, toList_int, not_or]
    exact ⟨newline_notMem_signed _ (Numeral.wellFormed_ofNat _), h⟩
  | .float x, rest, h => by
    rw [put, List.mem_append, not_or]
    exact ⟨newline_notMem_float x, h⟩
  | .str s, rest, h => newline_notMem_putString s h
  | .arr items, rest, h => by
    rw [put, List.mem_cons, not_or]
    exact ⟨by decide, newline_notMem_putItems items (by simp [h])⟩
  | .obj members, rest, h => by
    rw [put, List.mem_cons, not_or]
    exact ⟨by decide, newline_notMem_putMembers members (by simp [h])⟩

theorem newline_notMem_putItems : ∀ (items : List Json) {rest : List Char}, '\n' ∉ rest →
    '\n' ∉ putItems items rest
  | [], _, h => h
  | [v], _, h => newline_notMem_put v h
  | v :: w :: more, _, h => by
    have hmore := newline_notMem_putItems (w :: more) h
    exact newline_notMem_put v (by simp [hmore])

theorem newline_notMem_putMembers : ∀ (members : List (String × Json)) {rest : List Char},
    '\n' ∉ rest → '\n' ∉ putMembers members rest
  | [], _, h => h
  | [(k, v)], _, h => by
    have hv := newline_notMem_put v h
    exact newline_notMem_putString k (by simp [hv])
  | (k, v) :: m :: more, rest, h => by
    have hmore := newline_notMem_putMembers (m :: more) h
    have hv := newline_notMem_put v
      (show '\n' ∉ ',' :: putMembers (m :: more) rest by simp [hmore])
    exact newline_notMem_putString k (by simp [hv])

end

theorem newline_notMem_render (j : Json) : '\n' ∉ j.render.toList := by
  rw [render, String.toList_ofList]
  exact newline_notMem_put j List.not_mem_nil

/-! ## White space around a text -/

theorem suffix_putString (s : String) (rest : List Char) : rest <:+ putString s rest := by
  have hfold : ∀ cs : List Char,
      rest <:+ cs.foldr (fun c r => escape c ++ r) ('"' :: rest) := by
    intro cs
    induction cs with
    | nil => exact List.suffix_cons _ _
    | cons c cs ih => exact ih.trans (List.suffix_append _ _)
  exact (hfold s.toList).trans (List.suffix_cons _ _)

mutual

/-- What stands behind a text stays there. -/
theorem suffix_put : ∀ (j : Json) (rest : List Char), rest <:+ j.put rest
  | .null, _ => List.suffix_append _ _
  | .bool _, _ => List.suffix_append _ _
  | .int _, _ => List.suffix_append _ _
  | .float _, _ => List.suffix_append _ _
  | .str s, rest => suffix_putString s rest
  | .arr items, _ =>
    (List.suffix_cons _ _).trans ((suffix_putItems items _).trans (List.suffix_cons _ _))
  | .obj members, _ =>
    (List.suffix_cons _ _).trans ((suffix_putMembers members _).trans (List.suffix_cons _ _))

theorem suffix_putItems : ∀ (items : List Json) (rest : List Char), rest <:+ putItems items rest
  | [], _ => List.suffix_refl _
  | [v], rest => suffix_put v rest
  | v :: w :: more, rest =>
    ((suffix_putItems (w :: more) rest).trans (List.suffix_cons _ _)).trans (suffix_put v _)

theorem suffix_putMembers : ∀ (members : List (String × Json)) (rest : List Char),
    rest <:+ putMembers members rest
  | [], _ => List.suffix_refl _
  | [(k, v)], rest =>
    ((suffix_put v rest).trans (List.suffix_cons _ _)).trans (suffix_putString k _)
  | (k, v) :: m :: more, rest => by
    have hmore := (suffix_putMembers (m :: more) rest).trans (List.suffix_cons ',' _)
    have hv := (hmore.trans (suffix_put v _)).trans (List.suffix_cons ':' _)
    exact hv.trans (suffix_putString k _)

end

theorem trim_of_ends {c d : Char} (hc : Text.isSpace c = false) (hd : Text.isSpace d = false)
    (cs : List Char) : Text.trim (c :: (cs ++ [d])) = c :: (cs ++ [d]) := by
  rw [Text.trim, List.dropWhile_cons_of_neg (by simp [hc]), ← List.cons_append,
    List.reverse_append, List.reverse_singleton, List.singleton_append,
    List.dropWhile_cons_of_neg (by simp [hd])]
  simp

/-- Nothing around the text of an object is taken for white space. -/
theorem trim_render_obj (members : List (String × Json)) :
    Text.trim (obj members).render.toList = (obj members).render.toList := by
  obtain ⟨cs, hcs⟩ := suffix_putMembers members ['\x7d']
  have hopening : Text.isSpace '\x7b' = false := by decide +kernel
  have hclosing : Text.isSpace '\x7d' = false := by decide +kernel
  rw [render, String.toList_ofList, put, ← hcs]
  exact trim_of_ends hopening hclosing cs

/-! ## Names in order -/

theorem canonicalItems_eq {items : List Json} (h : ∀ j ∈ items, j.canonical = j) :
    canonicalItems items = items := by
  induction items with
  | nil => rfl
  | cons j rest ih =>
    rw [canonicalItems, h j List.mem_cons_self, ih fun i hi => h i (List.mem_cons_of_mem _ hi)]

theorem canonicalMembers_eq {members : List (String × Json)}
    (h : ∀ e ∈ members, e.2.canonical = e.2) : canonicalMembers members = members := by
  induction members with
  | nil => rfl
  | cons e rest ih =>
    obtain ⟨k, j⟩ := e
    rw [canonicalMembers, ih fun e he => h e (List.mem_cons_of_mem _ he),
      h (k, j) List.mem_cons_self]

theorem canonical_arr {items : List Json} (h : ∀ j ∈ items, j.canonical = j) :
    (arr items).canonical = arr items := by
  rw [canonical, canonicalItems_eq h]

theorem canonical_obj {members : List (String × Json)} (hm : Ascending members)
    (h : ∀ e ∈ members, e.2.canonical = e.2) : (obj members).canonical = obj members := by
  rw [canonical, canonicalMembers_eq h, ofList_of_ascending hm]

end Json

namespace Value

mutual

theorem canonical_toJson : ∀ {v : Value}, v.WellFormed → v.toJson.canonical = v.toJson
  | null, _ => rfl
  | bool _, _ => rfl
  | int _, _ => rfl
  | float x, _ => by
    rw [toJson]
    split <;> rfl
  | string _, _ => rfl
  | array items, h => Json.canonical_arr (canonical_toJsonItems h)
  | object fields, h => by
    have hfields : Ascending (toJsonMembers fields) := by
      rw [toJsonMembers_eq]
      exact ascending_mapValues.mpr h.1
    exact Json.canonical_obj hfields (canonical_toJsonMembers h.2)

theorem canonical_toJsonItems : ∀ {items : List Value}, WellFormedItems items →
    ∀ j ∈ toJsonItems items, j.canonical = j
  | [], _ => fun _ hj => absurd hj List.not_mem_nil
  | v :: rest, h => by
    rw [toJsonItems, List.forall_mem_cons]
    exact ⟨canonical_toJson h.1, canonical_toJsonItems h.2⟩

theorem canonical_toJsonMembers : ∀ {fields : List (String × Value)}, WellFormedFields fields →
    ∀ e ∈ toJsonMembers fields, e.2.canonical = e.2
  | [], _ => fun _ he => absurd he List.not_mem_nil
  | (_, v) :: rest, h => by
    rw [toJsonMembers, List.forall_mem_cons]
    exact ⟨canonical_toJson h.1, canonical_toJsonMembers h.2⟩

end

end Value

theorem Document.canonical_toJson {d : Document} (h : Value.WellFormedFields d.fields) :
    d.toJson.canonical = d.toJson := by
  refine Json.canonical_obj d.ascending_members ?_
  rw [members_eq]
  have hassigned := forall_mem_assigned (P := fun j : Json => j.canonical = j)
    (fun _ => rfl) (fun _ => rfl) d
  exact forall_mem_foldl_insert (P := fun j : Json => j.canonical = j) hassigned
    (Value.canonical_toJsonMembers h)

end DocBase
