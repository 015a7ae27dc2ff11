import DocBase.Proofs.Number.Decimal
import DocBase.Json.Reader

/-! Numbers in JSON text read back as they were printed, whole or floating-point. -/
namespace DocBase.Json

/-- What follows a number does not go on with it. -/
def Ends (rest : List Char) : Prop :=
  ∀ c r, rest = c :: r → c.isDigit = false ∧ c ≠ '.' ∧ c ≠ 'e' ∧ c ≠ 'E'

theorem ends_nil : Ends [] := by rintro c r ⟨⟩

theorem ends_cons {c : Char} {r : List Char}
    (h : c.isDigit = false ∧ c ≠ '.' ∧ c ≠ 'e' ∧ c ≠ 'E') : Ends (c :: r) := by
  rintro c' r' ⟨⟩
  exact h

/-! ## Digits -/

def Digits (ds : List Char) : Prop := ∀ c ∈ ds, c.isDigit

theorem natOfDigits_eq (ds : List Char) : natOfDigits ds = Nat.ofDigitChars 10 ds 0 := by
  rw [natOfDigits, Nat.ofDigitChars_eq_foldl]
  congr 1
  funext n c
  rw [Nat.mul_comm]

@[simp] theorem natOfDigits_toDigits (n : Nat) : natOfDigits (Nat.toDigits 10 n) = n := by
  rw [natOfDigits_eq, Nat.ofDigitChars_ten_toDigits]

theorem natOfDigits_append (ds es : List Char) :
    natOfDigits (ds ++ es) = natOfDigits ds * 10 ^ es.length + natOfDigits es := by
  rw [natOfDigits_eq, Nat.ofDigitChars_append, Nat.ofDigitChars_eq_ofDigitChars_zero,
    natOfDigits_eq, natOfDigits_eq, Nat.mul_comm]

theorem natOfDigits_zeros (n : Nat) : natOfDigits (List.replicate n '0') = 0 := by
  rw [natOfDigits_eq, Nat.ofDigitChars_replicate_zero, Nat.mul_zero]

theorem digits_toDigits (n : Nat) : Digits (Nat.toDigits 10 n) :=
  fun _ hc => Nat.isDigit_of_mem_toDigits (by decide) (by decide) hc

theorem digits_append {ds es : List Char} (hd : Digits ds) (he : Digits es) : Digits (ds ++ es) :=
  fun c hc => (List.mem_append.mp hc).elim (hd c) (he c)

theorem digits_zeros (n : Nat) : Digits (List.replicate n '0') := by
  intro c hc
  rw [(List.mem_replicate.mp hc).2]
  rfl

theorem head_toDigits_ne_zero {n : Nat} (hn : n ≠ 0) : (Nat.toDigits 10 n).head? ≠ some '0' := by
  induction n using Nat.strongRecOn with
  | ind n ih =>
    rw [Nat.toDigits_eq_if (by decide)]
    split
    next hlt =>
      have hall : ∀ k < 10, k ≠ 0 → Nat.digitChar k ≠ '0' := by decide
      exact fun h => hall n hlt hn (Option.some.inj h)
    next hge =>
      rw [List.head?_append_of_ne_nil _ Nat.toDigits_ne_nil]
      exact ih (n / 10) (by omega) (by omega)

theorem readDigits_append {ds rest : List Char} (hd : Digits ds) (hne : ds ≠ [])
    (hrest : ∀ c r, rest = c :: r → c.isDigit = false) :
    readDigits (ds ++ rest) = some (ds, rest) := by
  have htake : rest.takeWhile Char.isDigit = [] := by
    cases rest with
    | nil => rfl
    | cons c r => rw [List.takeWhile_cons, hrest c r rfl]; rfl
  have hdrop : rest.dropWhile Char.isDigit = rest := by
    cases rest with
    | nil => rfl
    | cons c r => rw [List.dropWhile_cons, hrest c r rfl]; rfl
  rw [readDigits, List.takeWhile_append_of_pos hd, List.dropWhile_append_of_pos hd, htake, hdrop,
    List.append_nil]
  cases ds with
  | nil => exact absurd rfl hne
  | cons d ds => rfl

/-! ## Numerals -/

/-- The parts of the text of a number after its sign. -/
structure Numeral where
  whole : List Char
  fraction : List Char := []
  exponent : Option Int := none

namespace Numeral

def exponentText : Option Int → List Char
  | none => []
  | some e => 'e' :: (if e < 0 then '-' else '+') :: Nat.toDigits 10 e.natAbs

def fractionText (ds : List Char) : List Char := if ds.isEmpty then [] else '.' :: ds

def text (n : Numeral) : List Char :=
  n.whole ++ (fractionText n.fraction ++ exponentText n.exponent)

structure WellFormed (n : Numeral) : Prop where
  whole : Digits n.whole
  ne_nil : n.whole ≠ []
  noZero : ¬(1 < n.whole.length ∧ n.whole.head? = some '0')
  fraction : Digits n.fraction

theorem readExponent_append (e : Option Int) {rest : List Char} (h : Ends rest) :
    readExponent (exponentText e ++ rest) = some (e, rest) := by
  cases e with
  | none =>
    cases rest with
    | nil => rfl
    | cons c r =>
      obtain ⟨-, -, he, hE⟩ := h c r rfl
      rw [exponentText, List.nil_append, readExponent.eq_def]
      exact if_neg (by simp [he, hE])
  | some e =>
    have hdigits : readDigits (Nat.toDigits 10 e.natAbs ++ rest) =
        some (Nat.toDigits 10 e.natAbs, rest) :=
      readDigits_append (digits_toDigits _) Nat.toDigits_ne_nil fun c r hc => (h c r hc).1
    rw [exponentText]
    by_cases hneg : e < 0
    · rw [if_pos hneg]
      change (readDigits (Nat.toDigits 10 e.natAbs ++ rest)).map (fun read =>
        (some (-(natOfDigits read.1 : Int)), read.2)) = _
      rw [hdigits, Option.map_some]
      simp only [natOfDigits_toDigits]
      congr 3
      omega
    · rw [if_neg hneg]
      change (readDigits (Nat.toDigits 10 e.natAbs ++ rest)).map (fun read =>
        (some (natOfDigits read.1 : Int), read.2)) = _
      rw [hdigits, Option.map_some]
      simp only [natOfDigits_toDigits]
      congr 3
      omega

theorem readFraction_append {ds rest : List Char} (hd : Digits ds)
    (hrest : ∀ c r, rest = c :: r → c.isDigit = false ∧ c ≠ '.') :
    readFraction (fractionText ds ++ rest) = some (ds, rest) := by
  rw [fractionText]
  split
  next hempty =>
    rw [List.isEmpty_iff] at hempty
    rw [hempty, List.nil_append, readFraction.eq_def]
    split
    next r => exact absurd rfl (hrest '.' r rfl).2
    next => rfl
  next hne =>
    rw [List.cons_append, readFraction]
    exact readDigits_append hd (by simpa using hne) fun c r hc => (hrest c r hc).1

/-- What follows the digits before and after a point. -/
theorem exponentText_ends (e : Option Int) {rest : List Char} (h : Ends rest) :
    ∀ c r, exponentText e ++ rest = c :: r → c.isDigit = false ∧ c ≠ '.' := by
  intro c r hc
  cases e with
  | none => exact ⟨(h c r hc).1, (h c r hc).2.1⟩
  | some e =>
    rw [exponentText, List.cons_append] at hc
    cases hc
    exact ⟨rfl, by decide⟩

theorem fractionText_ends (ds : List Char) {rest : List Char}
    (h : ∀ c r, rest = c :: r → c.isDigit = false ∧ c ≠ '.') :
    ∀ c r, fractionText ds ++ rest = c :: r → c.isDigit = false := by
  intro c r hc
  rw [fractionText] at hc
  split at hc
  · exact (h c r hc).1
  · cases hc
    rfl

/-- A number is read off its sign and its parts, and what follows is left. -/
theorem readNumber_append (negative : Bool) {n : Numeral} (h : n.WellFormed) {rest : List Char}
    (hrest : Ends rest) :
    readNumber ((if negative then ['-'] else []) ++ (n.text ++ rest)) =
      (number negative n.whole n.fraction n.exponent).map (·, rest) := by
  have hexponent := exponentText_ends n.exponent hrest
  have hwhole : readDigits (n.text ++ rest) =
      some (n.whole, fractionText n.fraction ++ (exponentText n.exponent ++ rest)) := by
    rw [text, List.append_assoc, List.append_assoc]
    exact readDigits_append h.whole h.ne_nil (fractionText_ends _ hexponent)
  have hsigned : ∀ b cs, cs = n.text ++ rest → b = negative →
      (readDigits cs).bind (fun read => if 1 < read.1.length ∧ read.1.head? = some '0' then none
        else (readFraction read.2).bind fun fraction =>
          (readExponent fraction.2).bind fun exponent =>
            (number b read.1 fraction.1 exponent.1).bind fun j => some (j, exponent.2)) =
        (number negative n.whole n.fraction n.exponent).map (·, rest) := by
    rintro b cs rfl rfl
    simp only [hwhole, Option.bind_some, if_neg h.noZero,
      readFraction_append h.fraction hexponent, readExponent_append n.exponent hrest]
    cases number b n.whole n.fraction n.exponent <;> rfl
  rw [readNumber.eq_def]
  cases negative with
  | true => exact hsigned true _ rfl rfl
  | false =>
    obtain ⟨d, ds, hds⟩ := List.exists_cons_of_ne_nil h.ne_nil
    obtain ⟨tail, htail⟩ : ∃ tail, n.text ++ rest = d :: tail := ⟨_, by rw [text, hds]; rfl⟩
    rw [if_neg (by simp), List.nil_append, htail]
    split
    next negative cs hsign =>
      split at hsign
      next hminus =>
        cases hminus
        cases h.whole '-' (hds ▸ List.mem_cons_self)
      next =>
        cases hsign
        exact hsigned false _ htail.symm rfl

def value (n : Numeral) : ℚ :=
  natOfDigits (n.whole ++ n.fraction) * 10 ^ (n.exponent.getD 0 - n.fraction.length)

end Numeral

/-! ## Whole numbers -/

theorem noZero_toDigits (n : Nat) : ¬(1 < (Nat.toDigits 10 n).length ∧
    (Nat.toDigits 10 n).head? = some '0') := by
  rintro ⟨hlength, hhead⟩
  rcases Nat.eq_zero_or_pos n with rfl | hn
  · rw [Nat.toDigits_zero] at hlength
    simp at hlength
  · exact head_toDigits_ne_zero hn.ne' hhead

/-- The digits of a whole number. -/
def Numeral.ofNat (n : Nat) : Numeral := { whole := Nat.toDigits 10 n }

theorem Numeral.wellFormed_ofNat (n : Nat) : (ofNat n).WellFormed :=
  ⟨digits_toDigits n, Nat.toDigits_ne_nil, noZero_toDigits n,
    fun _ hc => absurd hc List.not_mem_nil⟩

theorem toList_int (n : Int) : (toString n).toList =
    (if decide (n < 0) then ['-'] else []) ++ (Numeral.ofNat n.natAbs).text := by
  rw [Int.toString_eq_repr, Int.repr_eq_if, Numeral.ofNat, Numeral.text]
  by_cases hneg : n < 0
  · rw [if_neg (by omega), String.toList_append, Nat.toList_repr,
      show (-n).toNat = n.natAbs by omega]
    simp [hneg, Numeral.fractionText, Numeral.exponentText]
  · rw [if_pos (by omega), Nat.toList_repr, show n.toNat = n.natAbs by omega]
    simp [hneg, Numeral.fractionText, Numeral.exponentText]

/-- Whole numbers of 64 bits, signed or not, are read as they are printed. -/
theorem readNumber_int {n : Int} (hlow : -(2 ^ 63) ≤ n) (hhigh : n < 2 ^ 64) {rest : List Char}
    (hrest : Ends rest) : readNumber ((toString n).toList ++ rest) = some (int n, rest) := by
  rw [toList_int, List.append_assoc,
    Numeral.readNumber_append _ (Numeral.wellFormed_ofNat _) hrest, Numeral.ofNat, number,
    natOfDigits_toDigits]
  by_cases hneg : n < 0
  · rw [if_neg (by simp [hneg]), if_pos (by simp [hneg]; omega)]
    simp only [Option.map_some]
    congr 3
    omega
  · rw [if_pos (by simp [hneg, UInt64.size]; omega)]
    simp only [Option.map_some]
    congr 3
    omega

/-! ## Floating-point numbers -/

/-- The parts of a text with a point or an exponent, which stands for a decimal. -/
structure Numeral.Spells (n : Numeral) (s : List Char) (d : Decimal) : Prop where
  wellFormed : n.WellFormed
  text : s = n.text
  value : n.value = d.value
  isFloat : ¬(n.fraction.isEmpty ∧ n.exponent.isNone)

namespace Numeral
variable {d : Decimal}

/-- A value whose digits are those of the decimal, perhaps with zeros around them. -/
theorem value_eq {n : Numeral} {k : Nat}
    (hdigits : natOfDigits (n.whole ++ n.fraction) = d.digits * 10 ^ k)
    (hexponent : n.exponent.getD 0 - n.fraction.length + k = d.exponent) :
    n.value = d.value := by
  rw [value, Decimal.value, hdigits, ← hexponent, zpow_add₀ (by norm_num), zpow_natCast]
  push_cast
  ring

theorem spells_whole (h : d.digits ≠ 0) (he : 0 ≤ d.exponent) :
    Spells { whole := Nat.toDigits 10 d.digits ++ List.replicate d.exponent.toNat '0',
             fraction := ['0'] }
      (Nat.toDigits 10 d.digits ++ List.replicate d.exponent.toNat '0' ++ ".0".toList) d := by
  refine ⟨⟨digits_append (digits_toDigits _) (digits_zeros _), ?_, ?_, by simp [Digits]⟩, ?_, ?_,
    by simp⟩
  · simp [Nat.toDigits_ne_nil]
  · rw [List.head?_append_of_ne_nil _ Nat.toDigits_ne_nil]
    exact fun hzero => head_toDigits_ne_zero h hzero.2
  · simp [text, fractionText, exponentText]
  · refine value_eq (k := d.exponent.toNat + 1) ?_ (by simp; omega)
    rw [List.append_assoc, natOfDigits_append, natOfDigits_toDigits, ← List.replicate_succ',
      natOfDigits_zeros, List.length_replicate, Nat.add_zero]

theorem spells_point (h : d.digits ≠ 0) {p : Nat} (hp : 0 < p)
    (hlength : ((Nat.toDigits 10 d.digits).length : Int) + d.exponent = p)
    (he : d.exponent < 0) :
    Spells { whole := (Nat.toDigits 10 d.digits).take p,
             fraction := (Nat.toDigits 10 d.digits).drop p }
      ((Nat.toDigits 10 d.digits).take p ++ '.' :: (Nat.toDigits 10 d.digits).drop p) d := by
  have hdigits := digits_toDigits d.digits
  refine ⟨⟨fun c hc => hdigits c (List.mem_of_mem_take hc), ?_, ?_,
    fun c hc => hdigits c (List.mem_of_mem_drop hc)⟩, ?_, ?_, ?_⟩
  · simp only [ne_eq, List.take_eq_nil_iff, Nat.toDigits_ne_nil, or_false]
    omega
  · rw [List.head?_take, if_neg hp.ne']
    exact fun hzero => head_toDigits_ne_zero h hzero.2
  · have hne : (Nat.toDigits 10 d.digits).drop p ≠ [] := by
      rw [ne_eq, List.drop_eq_nil_iff]; omega
    simp [text, fractionText, exponentText, hne]
  · refine value_eq (k := 0) ?_ ?_
    · simp
    · simp only [Option.getD_none, List.length_drop]
      omega
  · simp only [List.isEmpty_iff, List.drop_eq_nil_iff, not_and]
    omega

theorem spells_small {z : Nat}
    (hlength : ((Nat.toDigits 10 d.digits).length : Int) + d.exponent = -z) :
    Spells { whole := ['0'], fraction := List.replicate z '0' ++ Nat.toDigits 10 d.digits }
      ("0.".toList ++ List.replicate z '0' ++ Nat.toDigits 10 d.digits) d := by
  refine ⟨⟨by simp [Digits], by simp, by simp,
    digits_append (digits_zeros _) (digits_toDigits _)⟩, ?_, ?_, ?_⟩
  · simp [text, fractionText, exponentText, Nat.toDigits_ne_nil]
  · refine value_eq (k := 0) ?_ ?_
    · rw [← List.append_assoc, natOfDigits_append, List.singleton_append, ← List.replicate_succ,
        natOfDigits_zeros, natOfDigits_toDigits, Nat.zero_mul, Nat.zero_add, Nat.pow_zero,
        Nat.mul_one]
    · simp only [Option.getD_none, List.length_append, List.length_replicate]
      omega
  · simp [Nat.toDigits_ne_nil]

theorem spells_exponent (d : Decimal) :
    Spells { whole := (Nat.toDigits 10 d.digits).take 1,
             fraction := (Nat.toDigits 10 d.digits).drop 1,
             exponent := some ((Nat.toDigits 10 d.digits).length + d.exponent - 1) }
      ((Nat.toDigits 10 d.digits).take 1 ++ (fractionText ((Nat.toDigits 10 d.digits).drop 1) ++
        exponentText (some ((Nat.toDigits 10 d.digits).length + d.exponent - 1)))) d := by
  have hdigits := digits_toDigits d.digits
  have hpos : 0 < (Nat.toDigits 10 d.digits).length := Nat.length_toDigits_pos
  refine ⟨⟨fun c hc => hdigits c (List.mem_of_mem_take hc), ?_, ?_,
    fun c hc => hdigits c (List.mem_of_mem_drop hc)⟩, rfl, ?_, by simp⟩
  · simp [List.take_eq_nil_iff, Nat.toDigits_ne_nil]
  · rintro ⟨hlength, -⟩
    simp only [List.length_take] at hlength
    omega
  · refine value_eq (k := 0) ?_ ?_
    · rw [List.take_append_drop, natOfDigits_toDigits, Nat.pow_zero, Nat.mul_one]
    · simp only [Option.getD_some, List.length_drop]
      omega

end Numeral

/-- In whatever way a decimal is laid out, its text stands for it. -/
theorem exists_numeral (d : Decimal) :
    ∃ n : Numeral, n.Spells (d.text floatLayout).toList d := by
  rw [Decimal.text]
  split
  next hzero =>
    refine ⟨{ whole := ['0'], fraction := ['0'] }, ⟨by simp [Digits], by simp, by simp,
      by simp [Digits]⟩, rfl, ?_, by simp⟩
    simp [Numeral.value, Decimal.value, hzero, natOfDigits]
  next hdigits =>
    extract_lets ds point fraction sign
    have hds : ds = Nat.toDigits 10 d.digits := Nat.toList_repr
    have hpoint : point = (Nat.toDigits 10 d.digits).length + d.exponent := by rw [← hds]
    split
    · split
      next he =>
        have htext : (String.ofList ds ++ Decimal.zeros d.exponent ++ floatLayout.whole).toList =
            Nat.toDigits 10 d.digits ++ List.replicate d.exponent.toNat '0' ++ ".0".toList := by
          simp [hds, Decimal.zeros, floatLayout]
        rw [htext]
        exact ⟨_, Numeral.spells_whole hdigits he⟩
      next he =>
      split
      next hpos =>
        have htext : (String.ofList (ds.take point.toNat) ++ "." ++
            String.ofList (ds.drop point.toNat)).toList =
            (Nat.toDigits 10 d.digits).take point.toNat ++
              '.' :: (Nat.toDigits 10 d.digits).drop point.toNat := by
          simp [hds]
        rw [htext]
        exact ⟨_, Numeral.spells_point hdigits (by omega) (by omega) (by omega)⟩
      next hpos =>
        have htext : ("0." ++ Decimal.zeros (-point) ++ String.ofList ds).toList =
            "0.".toList ++ List.replicate (-point).toNat '0' ++ Nat.toDigits 10 d.digits := by
          simp [hds, Decimal.zeros]
        rw [htext]
        exact ⟨_, Numeral.spells_small (by omega)⟩
    next =>
      have htext : (String.ofList (ds.take 1) ++ fraction ++ "e" ++ sign ++
          (point - 1).natAbs.repr).toList = (Nat.toDigits 10 d.digits).take 1 ++
            (Numeral.fractionText ((Nat.toDigits 10 d.digits).drop 1) ++
              Numeral.exponentText (some ((Nat.toDigits 10 d.digits).length + d.exponent - 1))) := by
        have hfraction : fraction.toList = Numeral.fractionText (ds.drop 1) := by
          have hempty : (ds.drop 1).isEmpty ↔ ds.length ≤ 1 := by
            rw [List.isEmpty_iff, List.drop_eq_nil_iff]
          simp only [fraction, Numeral.fractionText, hempty]
          split <;> simp
        have hsign : sign.toList = [if point - 1 < 0 then '-' else '+'] := by
          simp only [sign]
          split <;> rfl
        simp only [String.toList_append, hfraction, hsign, Nat.toList_repr, String.toList_ofList,
          ← hpoint, hds, Numeral.exponentText]
        simp
      rw [htext]
      exact ⟨_, Numeral.spells_exponent d⟩

theorem toList_float {x : Binary64} (hx : x.isFinite) {n : Numeral}
    (hn : ((Decimal.shortest x.magnitude).text floatLayout).toList = n.text) :
    (floatText x).toList = (if x.negative then ['-'] else []) ++ n.text := by
  rw [floatText, if_pos hx, Binary64.text, String.toList_append, hn]
  cases x.negative <;> rfl

/-- Finite numbers are read as they are printed. -/
theorem readNumber_float {x : Binary64} (hx : x.isFinite) {rest : List Char} (hrest : Ends rest) :
    readNumber ((floatText x).toList ++ rest) = some (float x, rest) := by
  obtain ⟨n, hwell, htext, hvalue, hform⟩ := exists_numeral (Decimal.shortest x.magnitude)
  have hfinite : x.magnitude < Binary64.topMagnitude := by simpa [Binary64.isFinite] using hx
  have hread := Decimal.reads_shortest hfinite x.negative (natOfDigits (n.whole ++ n.fraction))
    (n.exponent.getD 0 - n.fraction.length) hvalue
  have hsame : Binary64.ofDecimal x.negative (natOfDigits (n.whole ++ n.fraction))
      (n.exponent.getD 0 - n.fraction.length) = x := by
    rw [← Binary64.ofMagnitude_magnitude (Binary64.ofDecimal _ _ _), hread,
      Binary64.negative_ofDecimal, Binary64.ofMagnitude_magnitude]
  rw [toList_float hx htext, List.append_assoc, Numeral.readNumber_append _ hwell hrest, number,
    if_neg fun h => hform ⟨h.1, h.2.1⟩, if_neg fun h => hform ⟨h.1, h.2.1⟩, hsame, if_pos hx]
  rfl

/-! ## How numbers begin -/

def Begins (cs : List Char) : Prop := ∃ c r, cs = c :: r ∧ (c = '-' ∨ c.isDigit)

theorem Numeral.WellFormed.begins {n : Numeral} (h : n.WellFormed) (negative : Bool) :
    Begins ((if negative then ['-'] else []) ++ n.text) := by
  obtain ⟨d, ds, hds⟩ := List.exists_cons_of_ne_nil h.ne_nil
  cases negative with
  | true => exact ⟨'-', n.text, rfl, Or.inl rfl⟩
  | false => exact ⟨d, _, by rw [text, hds]; rfl, Or.inr (h.whole d (hds ▸ List.mem_cons_self))⟩

theorem begins_int (n : Int) : Begins (toString n).toList := by
  rw [toList_int]
  exact (Numeral.wellFormed_ofNat _).begins _

theorem begins_float {x : Binary64} (hx : x.isFinite) : Begins (floatText x).toList := by
  obtain ⟨n, hwell, htext, -, -⟩ := exists_numeral (Decimal.shortest x.magnitude)
  rw [toList_float hx htext]
  exact hwell.begins _

theorem readNumber_of_not_begins {c : Char} {r : List Char} (hminus : c ≠ '-')
    (hdigit : c.isDigit = false) : readNumber (c :: r) = none := by
  have hnone : readDigits (c :: r) = none := by
    rw [readDigits, List.takeWhile_cons, hdigit]
    rfl
  rw [readNumber.eq_def]
  split
  next negative cs hsign =>
    split at hsign
    next heq =>
      cases heq
      exact absurd rfl hminus
    next =>
      cases hsign
      rw [hnone]
      rfl

end DocBase.Json
