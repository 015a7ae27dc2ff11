import DocBase.Proofs.Json.Number

/-! A JSON text reads back as the value that was printed, as long as arrays and objects
do not lie too deep inside one another; where they do, it does not read at all. -/
namespace DocBase.Json

/-! ## Strings -/

theorem natOfHex?_hexPadded : ∀ n < 32, (Text.hexPadded 4 n).toList.length = 4 ∧
    Text.natOfHex? (Text.hexPadded 4 n).toList = some n := by
  decide

theorem readString_pair {e c : Char} (h : ∀ r, unescape (e :: r) = some (c, 1))
    (acc r : List Char) :
    readString acc ('\\' :: e :: r) = readString (c :: acc) r := by
  rw [readString, h]
  rfl

theorem unescape_control {n : Nat} (hn : n < 32) (r : List Char) :
    unescape ('u' :: (Text.hexPadded 4 n).toList ++ r) = some (Char.ofNat n, 5) := by
  obtain ⟨hlength, hvalue⟩ := natOfHex?_hexPadded n hn
  match hdigits : (Text.hexPadded 4 n).toList, hlength with
  | [a, b, c, d], _ =>
    rw [hdigits] at hvalue
    simp only [List.cons_append, List.nil_append, unescape, hvalue]
    rw [if_neg (by omega), if_neg (by omega)]

theorem readString_escape (acc : List Char) (c : Char) (r : List Char) :
    readString acc (escape c ++ r) = readString (c :: acc) r := by
  rw [escape]
  split
  next h => subst h; exact readString_pair (fun _ => rfl) acc r
  next hquote =>
  split
  next h => subst h; exact readString_pair (fun _ => rfl) acc r
  next hbackslash =>
  split
  next h => subst h; exact readString_pair (fun _ => rfl) acc r
  split
  next h => subst h; exact readString_pair (fun _ => rfl) acc r
  split
  next h => subst h; exact readString_pair (fun _ => rfl) acc r
  split
  next h =>
    obtain rfl : c = '\x08' := Char.ext (UInt32.toNat_inj.mp h)
    exact readString_pair (fun _ => rfl) acc r
  split
  next h =>
    obtain rfl : c = '\x0c' := Char.ext (UInt32.toNat_inj.mp h)
    exact readString_pair (fun _ => rfl) acc r
  split
  next h =>
    have hunescape := unescape_control h r
    rw [Char.ofNat_toNat] at hunescape
    rw [List.cons_append, readString, hunescape]
    have hlength := (natOfHex?_hexPadded c.toNat h).1
    simp only [List.cons_append, List.drop_succ_cons]
    rw [List.drop_append_of_le_length (by omega), List.drop_eq_nil_of_le (by omega),
      List.nil_append]
  next h =>
    rw [List.singleton_append, readString.eq_def]
    split
    next heq => cases heq; exact absurd rfl hquote
    next heq => cases heq; exact absurd rfl hbackslash
    next heq => cases heq; rw [if_neg h]
    next heq => cases heq

theorem readString_put (s acc rest : List Char) :
    readString acc (s.foldr (fun c r => escape c ++ r) ('"' :: rest)) =
      some (acc.reverse ++ s, rest) := by
  induction s generalizing acc with
  | nil => rw [List.foldr_nil, readString, List.append_nil]
  | cons c s ih =>
    rw [List.foldr_cons, readString_escape, ih, List.reverse_cons, List.append_assoc]
    rfl

/-! ## Values -/

mutual

/-- How deep arrays and objects lie inside one another. -/
def depth : Json → Nat
  | arr items => depthItems items + 1
  | obj members => depthMembers members + 1
  | _ => 0

def depthItems : List Json → Nat
  | [] => 0
  | v :: rest => max v.depth (depthItems rest)

def depthMembers : List (String × Json) → Nat
  | [] => 0
  | (_, v) :: rest => max v.depth (depthMembers rest)

end

mutual

/-- All numbers are whole and of 64 bits, or finite. -/
def Printable : Json → Prop
  | int n => -(2 ^ 63) ≤ n ∧ n < 2 ^ 64
  | float x => x.isFinite
  | arr items => PrintableItems items
  | obj members => PrintableMembers members
  | _ => True

def PrintableItems : List Json → Prop
  | [] => True
  | v :: rest => v.Printable ∧ PrintableItems rest

def PrintableMembers : List (String × Json) → Prop
  | [] => True
  | (_, v) :: rest => v.Printable ∧ PrintableMembers rest

end

theorem printableItems_iff {items : List Json} :
    PrintableItems items ↔ ∀ j ∈ items, j.Printable := by
  induction items with
  | nil => simp [PrintableItems]
  | cons j rest ih => simp [PrintableItems, ih]

theorem depthItems_le_iff {items : List Json} {n : Nat} :
    depthItems items ≤ n ↔ ∀ j ∈ items, j.depth ≤ n := by
  induction items with
  | nil => simp [depthItems]
  | cons j rest ih => simp [depthItems, ih]

theorem printableMembers_iff {members : List (String × Json)} :
    PrintableMembers members ↔ ∀ e ∈ members, e.2.Printable := by
  induction members with
  | nil => simp [PrintableMembers]
  | cons e rest ih =>
    obtain ⟨k, v⟩ := e
    simp [PrintableMembers, ih]

theorem depthMembers_le_iff {members : List (String × Json)} {n : Nat} :
    depthMembers members ≤ n ↔ ∀ e ∈ members, e.2.depth ≤ n := by
  induction members with
  | nil => simp [depthMembers]
  | cons e rest ih =>
    obtain ⟨k, v⟩ := e
    simp [depthMembers, ih]

mutual

/-- The fuel that reading a value takes. -/
def cost : Json → Nat
  | arr items => costItems items + 1
  | obj members => costMembers members + 1
  | _ => 1

def costItems : List Json → Nat
  | [] => 0
  | v :: rest => v.cost + costItems rest + 1

def costMembers : List (String × Json) → Nat
  | [] => 0
  | (_, v) :: rest => v.cost + costMembers rest + 1

end

theorem skipBlank_of_not_blank {c : Char} (h : isBlank c = false) (r : List Char) :
    skipBlank (c :: r) = c :: r := by
  rw [skipBlank, List.dropWhile_cons, h]
  rfl

theorem Begins.append {cs : List Char} (h : Begins cs) (rest : List Char) :
    Begins (cs ++ rest) := by
  obtain ⟨c, r, rfl, hc⟩ := h
  exact ⟨c, r ++ rest, rfl, hc⟩

/-- What no value begins with. -/
def Opens (c : Char) : Prop := isBlank c = false ∧ c ≠ ']' ∧ c ≠ '\x7d'

theorem opens_of_begins {c : Char} (h : c = '-' ∨ c.isDigit) : Opens c := by
  rcases h with rfl | h
  · exact ⟨rfl, by decide, by decide⟩
  · refine ⟨?_, ?_, ?_⟩
    · by_contra hblank
      simp only [isBlank, Bool.not_eq_false, Bool.or_eq_true, decide_eq_true_eq] at hblank
      rcases hblank with ((rfl | rfl) | rfl) | rfl <;> cases h
    · rintro rfl; cases h
    · rintro rfl; cases h

theorem put_opens {j : Json} (h : j.Printable) (rest : List Char) :
    ∃ c r, j.put rest = c :: r ∧ Opens c := by
  cases j with
  | null => exact ⟨'n', _, rfl, rfl, by decide, by decide⟩
  | bool b => cases b <;> exact ⟨_, _, rfl, rfl, by decide, by decide⟩
  | int n =>
    obtain ⟨c, r, hcs, hc⟩ := (begins_int n).append rest
    exact ⟨c, r, by rw [put, hcs], opens_of_begins hc⟩
  | float x =>
    obtain ⟨c, r, hcs, hc⟩ := (begins_float (x := x) h).append rest
    exact ⟨c, r, by rw [put, hcs], opens_of_begins hc⟩
  | str s => exact ⟨'"', _, rfl, rfl, by decide, by decide⟩
  | arr items => exact ⟨'[', _, rfl, rfl, by decide, by decide⟩
  | obj members => exact ⟨'\x7b', _, rfl, rfl, by decide, by decide⟩

theorem readValue_number {cs : List Char} (h : Begins cs) (fuel depth : Nat) :
    readValue (fuel + 1) depth cs = readNumber cs := by
  obtain ⟨c, r, rfl, hc⟩ := h
  rw [readValue.eq_def]
  dsimp only
  rw [skipBlank_of_not_blank (opens_of_begins hc).1]
  split
  case h_7 => rfl
  all_goals
    next heq =>
      cases heq
      rcases hc with hc | hc <;> cases hc

theorem readValue_arr {c : Char} (hc : Opens c) (r : List Char) (fuel depth : Nat) :
    readValue (fuel + 1) (depth + 1) ('[' :: c :: r) =
      (readItems fuel depth (c :: r)).map fun (vs, r) => (arr vs, r) := by
  rw [readValue.eq_def]
  simp only [skipBlank_of_not_blank (c := '[') rfl, skipBlank_of_not_blank hc.1]
  split
  next heq => cases heq; exact absurd rfl hc.2.1
  next => rfl

theorem readValue_obj (r : List Char) (fuel depth : Nat) :
    readValue (fuel + 1) (depth + 1) ('\x7b' :: '"' :: r) =
      (readMembers fuel depth ('"' :: r)).map fun (ms, r) => (obj ms, r) := by
  rw [readValue.eq_def]
  rfl

/-- Nothing opens where containers must not lie any deeper. -/
theorem readValue_too_deep {c : Char} (hc : c = '[' ∨ c = '\x7b') (r : List Char) (fuel : Nat) :
    readValue (fuel + 1) 0 (c :: r) = none := by
  rw [readValue.eq_def]
  rcases hc with rfl | rfl
  · exact readNumber_of_not_begins (by decide) rfl
  · exact readNumber_of_not_begins (by decide) rfl

theorem ends_of_mem {c : Char} (h : c = ',' ∨ c = ']' ∨ c = '\x7d') (r : List Char) :
    Ends (c :: r) := by
  rcases h with rfl | rfl | rfl <;> exact ends_cons ⟨rfl, by decide, by decide, by decide⟩

/-- A name is read, and then its value. -/
theorem readMembers_put_name (k : String) (cs : List Char) (fuel depth : Nat) :
    readMembers (fuel + 1) depth (putString k (':' :: cs)) =
      match readValue fuel depth cs with
      | none => none
      | some (v, r) =>
        match skipBlank r with
        | ',' :: r => (readMembers fuel depth r).map fun (ms, r) => ((k, v) :: ms, r)
        | '\x7d' :: r => some ([(k, v)], r)
        | _ => none := by
  have hk := readString_put k.toList [] (':' :: cs)
  rw [List.reverse_nil, List.nil_append] at hk
  rw [putString, readMembers.eq_def]
  dsimp only
  rw [skipBlank_of_not_blank rfl]
  simp only [hk, skipBlank_of_not_blank (c := ':') rfl, String.ofList_toList]
  all_goals rfl

mutual

/-- A value is read back if it does not lie too deep, and otherwise nothing is. -/
theorem readValue_put : ∀ {j : Json} {fuel : Nat} (depth : Nat) {rest : List Char}, j.Printable →
    Ends rest → j.cost ≤ fuel →
    readValue fuel depth (j.put rest) = if j.depth ≤ depth then some (j, rest) else none
  | .null, fuel + 1, depth, rest, _, _, _ => by
    rw [put, readValue.eq_def]
    exact (if_pos (Nat.zero_le depth)).symm
  | .bool b, fuel + 1, depth, rest, _, _, _ => by
    rw [put, readValue.eq_def]
    cases b <;> exact (if_pos (Nat.zero_le depth)).symm
  | .int n, fuel + 1, depth, rest, hj, hrest, _ => by
    rw [put, readValue_number ((begins_int n).append rest), readNumber_int hj.1 hj.2 hrest]
    exact (if_pos (Nat.zero_le depth)).symm
  | .float x, fuel + 1, depth, rest, hj, hrest, _ => by
    rw [put, readValue_number ((begins_float (x := x) hj).append rest), readNumber_float hj hrest]
    exact (if_pos (Nat.zero_le depth)).symm
  | .str s, fuel + 1, depth, rest, _, _, _ => by
    have hread := readString_put s.toList [] rest
    rw [put, putString, readValue.eq_def]
    change (readString [] (s.toList.foldr (fun c r => escape c ++ r) ('"' :: rest))).map
      (fun (s, r) => (str (String.ofList s), r)) = _
    rw [hread, if_pos (show (str s).depth ≤ depth from Nat.zero_le depth)]
    simp
  | .arr [], fuel + 1, 0, rest, _, _, _ => readValue_too_deep (Or.inl rfl) _ fuel
  | .arr [], fuel + 1, depth + 1, rest, _, _, _ => by
    rw [put, readValue.eq_def]
    exact (if_pos (Nat.succ_le_succ (Nat.zero_le depth))).symm
  | .arr (v :: more), fuel + 1, 0, rest, _, _, _ => by
    rw [put, readValue_too_deep (Or.inl rfl)]
    exact (if_neg (Nat.not_succ_le_zero _)).symm
  | .arr (v :: more), fuel + 1, depth + 1, rest, hj, _, hfuel => by
    have hitems := readItems_put depth rest (show PrintableItems (v :: more) from hj)
      (show costItems (v :: more) ≤ fuel by simp only [cost] at hfuel; omega)
    obtain ⟨c, r, hput, hc⟩ : ∃ c r, putItems (v :: more) (']' :: rest) = c :: r ∧ Opens c := by
      cases more with
      | nil => exact put_opens hj.1 _
      | cons w more => exact put_opens hj.1 _
    rw [put, hput, readValue_arr hc, ← hput, hitems, Json.depth]
    simp only [Nat.add_le_add_iff_right]
    split <;> rfl
  | .obj [], fuel + 1, 0, rest, _, _, _ => readValue_too_deep (Or.inr rfl) _ fuel
  | .obj [], fuel + 1, depth + 1, rest, _, _, _ => by
    rw [put, readValue.eq_def]
    exact (if_pos (Nat.succ_le_succ (Nat.zero_le depth))).symm
  | .obj (m :: more), fuel + 1, 0, rest, _, _, _ => by
    rw [put, readValue_too_deep (Or.inr rfl)]
    exact (if_neg (Nat.not_succ_le_zero _)).symm
  | .obj ((k, v) :: more), fuel + 1, depth + 1, rest, hj, _, hfuel => by
    have hmembers := readMembers_put depth rest (show PrintableMembers ((k, v) :: more) from hj)
      (show costMembers ((k, v) :: more) ≤ fuel by simp only [cost] at hfuel; omega)
    obtain ⟨r, hput⟩ : ∃ r, putMembers ((k, v) :: more) ('\x7d' :: rest) = '"' :: r := by
      cases more with
      | nil => exact ⟨_, rfl⟩
      | cons m more => exact ⟨_, rfl⟩
    rw [put, hput, readValue_obj, ← hput, hmembers, Json.depth]
    simp only [Nat.add_le_add_iff_right]
    split <;> rfl

theorem readItems_put : ∀ {v : Json} {more : List Json} {fuel : Nat} (depth : Nat)
    (rest : List Char), PrintableItems (v :: more) → costItems (v :: more) ≤ fuel →
    readItems fuel depth (putItems (v :: more) (']' :: rest)) =
      if depthItems (v :: more) ≤ depth then some (v :: more, rest) else none
  | v, [], fuel + 1, depth, rest, hitems, hfuel => by
    simp only [costItems] at hfuel
    have hv := readValue_put depth hitems.1 (ends_of_mem (Or.inr (Or.inl rfl)) rest)
      (show v.cost ≤ fuel by omega)
    rw [putItems, readItems, hv, depthItems, depthItems, Nat.max_zero]
    by_cases hdepth : v.depth ≤ depth
    · rw [if_pos hdepth, if_pos hdepth]; rfl
    · rw [if_neg hdepth, if_neg hdepth]
  | v, w :: more, fuel + 1, depth, rest, hitems, hfuel => by
    simp only [costItems] at hfuel
    have hv := readValue_put depth hitems.1
      (ends_of_mem (Or.inl rfl) (putItems (w :: more) (']' :: rest)))
      (show v.cost ≤ fuel by omega)
    have hmore := readItems_put depth rest hitems.2
      (show costItems (w :: more) ≤ fuel by simp only [costItems]; omega)
    rw [putItems, readItems, hv, depthItems]
    · by_cases hdepth : v.depth ≤ depth
      · rw [if_pos hdepth]
        change (readItems fuel depth (putItems (w :: more) (']' :: rest))).map
          (fun (vs, r) => (v :: vs, r)) = _
        rw [hmore]
        simp only [Nat.max_le, hdepth, true_and]
        split <;> rfl
      · rw [if_neg hdepth, if_neg fun h => hdepth (Nat.max_le.mp h).1]
    · exact fun h => nomatch h

theorem readMembers_put : ∀ {k : String} {v : Json} {more : List (String × Json)} {fuel : Nat}
    (depth : Nat) (rest : List Char), PrintableMembers ((k, v) :: more) →
    costMembers ((k, v) :: more) ≤ fuel →
    readMembers fuel depth (putMembers ((k, v) :: more) ('\x7d' :: rest)) =
      if depthMembers ((k, v) :: more) ≤ depth then some ((k, v) :: more, rest) else none
  | k, v, [], fuel + 1, depth, rest, hmembers, hfuel => by
    simp only [costMembers] at hfuel
    have hv := readValue_put depth hmembers.1 (ends_of_mem (Or.inr (Or.inr rfl)) rest)
      (show v.cost ≤ fuel by omega)
    rw [putMembers, readMembers_put_name, hv, depthMembers, depthMembers, Nat.max_zero]
    by_cases hdepth : v.depth ≤ depth
    · rw [if_pos hdepth, if_pos hdepth]; rfl
    · rw [if_neg hdepth, if_neg hdepth]
  | k, v, (l, w) :: more, fuel + 1, depth, rest, hmembers, hfuel => by
    simp only [costMembers] at hfuel
    have hv := readValue_put depth hmembers.1
      (ends_of_mem (Or.inl rfl) (putMembers ((l, w) :: more) ('\x7d' :: rest)))
      (show v.cost ≤ fuel by omega)
    have hmore := readMembers_put depth rest hmembers.2
      (show costMembers ((l, w) :: more) ≤ fuel by simp only [costMembers]; omega)
    rw [putMembers, readMembers_put_name, hv, depthMembers]
    · by_cases hdepth : v.depth ≤ depth
      · rw [if_pos hdepth]
        change (readMembers fuel depth (putMembers ((l, w) :: more) ('\x7d' :: rest))).map
          (fun (ms, r) => ((k, v) :: ms, r)) = _
        rw [hmore]
        simp only [Nat.max_le, hdepth, true_and]
        split <;> rfl
      · rw [if_neg hdepth, if_neg fun h => hdepth (Nat.max_le.mp h).1]
    · exact fun h => nomatch h

end

/-! ## Texts -/

theorem length_putString (s : String) (rest : List Char) :
    rest.length + 2 ≤ (putString s rest).length := by
  have hfold : ∀ cs : List Char, rest.length + 1 ≤
      (cs.foldr (fun c r => escape c ++ r) ('"' :: rest)).length := by
    intro cs
    induction cs with
    | nil => exact Nat.le_refl _
    | cons c cs ih =>
      rw [List.foldr_cons, List.length_append]
      omega
  have := hfold s.toList
  rw [putString, List.length_cons]
  omega

theorem Begins.length_pos {cs : List Char} (h : Begins cs) : 0 < cs.length := by
  obtain ⟨c, r, rfl, -⟩ := h
  exact Nat.succ_pos _

mutual

/-- The text of a value is long enough to pay for reading it. -/
theorem cost_le : ∀ {j : Json} (rest : List Char), j.Printable →
    j.cost + 1 + 2 * rest.length ≤ 2 * (j.put rest).length
  | .null, rest, _ => by
    have : (put null rest).length = rest.length + 4 := rfl
    simp only [cost]
    omega
  | .bool b, rest, _ => by
    have : rest.length + 4 ≤ (put (bool b) rest).length := by
      rw [put, List.length_append]
      cases b <;> simp <;> omega
    simp only [cost]
    omega
  | .int n, rest, _ => by
    have := (begins_int n).length_pos
    rw [put, List.length_append]
    simp only [cost]
    omega
  | .float x, rest, h => by
    have := (begins_float (x := x) h).length_pos
    rw [put, List.length_append]
    simp only [cost]
    omega
  | .str s, rest, _ => by
    have := length_putString s rest
    rw [put]
    simp only [cost]
    omega
  | .arr items, rest, h => by
    have := costItems_le items (']' :: rest) h
    rw [put]
    simp only [cost, List.length_cons] at this ⊢
    omega
  | .obj members, rest, h => by
    have := costMembers_le members ('\x7d' :: rest) h
    rw [put]
    simp only [cost, List.length_cons] at this ⊢
    omega

theorem costItems_le : ∀ (items : List Json) (rest : List Char), PrintableItems items →
    costItems items + 2 * rest.length ≤ 2 * (putItems items rest).length
  | [], rest, _ => by simp [costItems, putItems]
  | [v], rest, h => by
    have := cost_le rest h.1
    rw [putItems]
    simp only [costItems]
    omega
  | v :: w :: more, rest, h => by
    have hv := cost_le (',' :: putItems (w :: more) rest) h.1
    have hmore := costItems_le (w :: more) rest h.2
    rw [putItems, costItems]
    · simp only [List.length_cons] at hv
      omega
    · exact fun h => nomatch h

theorem costMembers_le : ∀ (members : List (String × Json)) (rest : List Char),
    PrintableMembers members →
    costMembers members + 2 * rest.length ≤ 2 * (putMembers members rest).length
  | [], rest, _ => by simp [costMembers, putMembers]
  | [(k, v)], rest, h => by
    have hv := cost_le rest h.1
    have hk := length_putString k (':' :: v.put rest)
    rw [putMembers]
    simp only [costMembers, List.length_cons] at hk ⊢
    omega
  | (k, v) :: m :: more, rest, h => by
    have hv := cost_le (',' :: putMembers (m :: more) rest) h.1
    have hk := length_putString k (':' :: v.put (',' :: putMembers (m :: more) rest))
    have hmore := costMembers_le (m :: more) rest h.2
    rw [putMembers, costMembers]
    · simp only [List.length_cons] at hv hk
      omega
    · exact fun h => nomatch h

end

/-- A text is read back exactly where containers lie no deeper than the reader goes. -/
theorem parse_render {j : Json} (h : j.Printable) :
    parse j.render = if j.depth ≤ depthLimit then some j else none := by
  have hcost := cost_le [] h
  have hread := readValue_put depthLimit h ends_nil
    (show j.cost ≤ 2 * (j.put []).length + 2 by simp only [List.length_nil] at hcost; omega)
  rw [parse, render]
  simp only [String.toList_ofList, hread]
  by_cases hdepth : j.depth ≤ depthLimit
  · rw [if_pos hdepth, if_pos hdepth]; rfl
  · rw [if_neg hdepth, if_neg hdepth]

end DocBase.Json
