import DocBase.Proofs.Json.RoundTrip
import DocBase.Proofs.Keyed
import DocBase.Proofs.Store.Frame
import DocBase.Document.Codec

/-! A document that was written is the one that is read, unless its arrays and objects lie
too deep inside one another: then its record cannot be read. -/
namespace DocBase
open Keyed

/-! ## Values -/
namespace Value

mutual

/-- The fields of objects ascend, at every level. -/
def WellFormed : Value → Prop
  | array items => WellFormedItems items
  | object fields => Ascending fields ∧ WellFormedFields fields
  | _ => True

def WellFormedItems : List Value → Prop
  | [] => True
  | v :: rest => v.WellFormed ∧ WellFormedItems rest

def WellFormedFields : List (String × Value) → Prop
  | [] => True
  | (_, v) :: rest => v.WellFormed ∧ WellFormedFields rest

end

mutual

/-- How deep arrays and objects lie inside one another. -/
def nesting : Value → Nat
  | array items => nestingItems items + 1
  | object fields => nestingFields fields + 1
  | _ => 0

def nestingItems : List Value → Nat
  | [] => 0
  | v :: rest => max v.nesting (nestingItems rest)

def nestingFields : List (String × Value) → Nat
  | [] => 0
  | (_, v) :: rest => max v.nesting (nestingFields rest)

end

theorem wellFormedItems_iff {items : List Value} :
    WellFormedItems items ↔ ∀ v ∈ items, v.WellFormed := by
  induction items with
  | nil => simp [WellFormedItems]
  | cons v rest ih => simp [WellFormedItems, ih]

theorem wellFormedFields_iff {fields : List (String × Value)} :
    WellFormedFields fields ↔ ∀ e ∈ fields, e.2.WellFormed := by
  induction fields with
  | nil => simp [WellFormedFields]
  | cons e rest ih =>
    obtain ⟨k, v⟩ := e
    simp [WellFormedFields, ih]

theorem toJsonMembers_eq (fields : List (String × Value)) :
    toJsonMembers fields = mapValues toJson fields := by
  induction fields with
  | nil => rfl
  | cons e rest ih => rw [toJsonMembers, ih]; rfl

theorem ofJsonMembers_eq (members : List (String × Json)) :
    ofJsonMembers members = mapValues ofJson members := by
  induction members with
  | nil => rfl
  | cons e rest ih => rw [ofJsonMembers, ih]; rfl

mutual

theorem printable_toJson : ∀ v : Value, v.toJson.Printable
  | null => trivial
  | bool _ => trivial
  | int n => by
    have hle := n.le_toInt
    have hlt := n.toInt_lt
    exact ⟨hle, by omega⟩
  | float x => by
    rw [toJson]
    split
    next h => exact h
    next => trivial
  | string _ => trivial
  | array items => printable_toJsonItems items
  | object fields => printable_toJsonMembers fields

theorem printable_toJsonItems : ∀ items : List Value, Json.PrintableItems (toJsonItems items)
  | [] => trivial
  | v :: rest => ⟨printable_toJson v, printable_toJsonItems rest⟩

theorem printable_toJsonMembers : ∀ fields : List (String × Value),
    Json.PrintableMembers (toJsonMembers fields)
  | [] => trivial
  | (_, v) :: rest => ⟨printable_toJson v, printable_toJsonMembers rest⟩

end

mutual

theorem depth_toJson : ∀ v : Value, v.toJson.depth = v.nesting
  | null => rfl
  | bool _ => rfl
  | int _ => rfl
  | float x => by
    rw [toJson]
    split <;> rfl
  | string _ => rfl
  | array items => congrArg (· + 1) (depth_toJsonItems items)
  | object fields => congrArg (· + 1) (depth_toJsonMembers fields)

theorem depth_toJsonItems : ∀ items : List Value,
    Json.depthItems (toJsonItems items) = nestingItems items
  | [] => rfl
  | v :: rest => congr (congrArg max (depth_toJson v)) (depth_toJsonItems rest)

theorem depth_toJsonMembers : ∀ fields : List (String × Value),
    Json.depthMembers (toJsonMembers fields) = nestingFields fields
  | [] => rfl
  | (_, v) :: rest => congr (congrArg max (depth_toJson v)) (depth_toJsonMembers rest)

end

mutual

/-- With null for each number that is not finite. -/
def nulled : Value → Value
  | float x => if x.isFinite then float x else null
  | array items => array (nulledItems items)
  | object fields => object (nulledFields fields)
  | v => v

def nulledItems : List Value → List Value
  | [] => []
  | v :: rest => v.nulled :: nulledItems rest

def nulledFields : List (String × Value) → List (String × Value)
  | [] => []
  | (k, v) :: rest => (k, v.nulled) :: nulledFields rest

end

theorem nulledFields_eq (fields : List (String × Value)) :
    nulledFields fields = mapValues nulled fields := by
  induction fields with
  | nil => rfl
  | cons e rest ih => rw [nulledFields, ih]; rfl

mutual

/-- What is read from the JSON form of a value. -/
theorem ofJson_toJson_eq_nulled : ∀ {v : Value}, v.WellFormed → ofJson v.toJson = v.nulled
  | null, _ => rfl
  | bool _, _ => rfl
  | int n, _ => by
    rw [toJson, ofJson, ofInt, if_pos ⟨n.minValue_le_toInt, n.toInt_le⟩, Int64.ofInt_toInt]
    rfl
  | float x, _ => by
    rw [toJson, nulled]
    split <;> rfl
  | string _, _ => rfl
  | array items, h => congrArg array (ofJsonItems_toJsonItems h)
  | object fields, h => by
    have hascending : Ascending (nulledFields fields) := by
      rw [nulledFields_eq]
      exact ascending_mapValues.mpr h.1
    rw [toJson, ofJson, ofJsonMembers_toJsonMembers h.2, ofList_of_ascending hascending, nulled]

theorem ofJsonItems_toJsonItems : ∀ {items : List Value}, WellFormedItems items →
    ofJsonItems (toJsonItems items) = nulledItems items
  | [], _ => rfl
  | v :: rest, h => by
    rw [toJsonItems, ofJsonItems, ofJson_toJson_eq_nulled h.1, ofJsonItems_toJsonItems h.2,
      nulledItems]

theorem ofJsonMembers_toJsonMembers : ∀ {fields : List (String × Value)},
    WellFormedFields fields → ofJsonMembers (toJsonMembers fields) = nulledFields fields
  | [], _ => rfl
  | (k, v) :: rest, h => by
    rw [toJsonMembers, ofJsonMembers, ofJson_toJson_eq_nulled h.1,
      ofJsonMembers_toJsonMembers h.2, nulledFields]

end

mutual

/-- The search for a number that is not finite misses none, wherever it is told that it starts. -/
theorem nulled_eq_self_iff : ∀ (v : Value) (path : String),
    v.nulled = v ↔ v.nonFinitePath path = none
  | null, _ => iff_of_true rfl rfl
  | bool _, _ => iff_of_true rfl rfl
  | int _, _ => iff_of_true rfl rfl
  | float x, path => by
    rw [nulled, nonFinitePath]
    split <;> simp
  | string _, _ => iff_of_true rfl rfl
  | array items, path => by
    rw [nulled, nonFinitePath, array.injEq, nulledItems_eq_self_iff items path 0]
  | object fields, path => by
    rw [nulled, nonFinitePath, object.injEq, nulledFields_eq_self_iff fields path]

theorem nulledItems_eq_self_iff : ∀ (items : List Value) (path : String) (i : Nat),
    nulledItems items = items ↔ nonFiniteItems path i items = none
  | [], _, _ => iff_of_true rfl rfl
  | v :: rest, path, i => by
    rw [nulledItems, nonFiniteItems, List.cons.injEq, Option.or_eq_none_iff,
      v.nulled_eq_self_iff s!"{path}[{i}]", nulledItems_eq_self_iff rest path (i + 1)]

theorem nulledFields_eq_self_iff : ∀ (fields : List (String × Value)) (path : String),
    nulledFields fields = fields ↔ nonFiniteFields path fields = none
  | [], _ => iff_of_true rfl rfl
  | (k, v) :: rest, path => by
    rw [nulledFields, nonFiniteFields, List.cons.injEq, Prod.mk.injEq, Option.or_eq_none_iff,
      v.nulled_eq_self_iff s!"{path}.{k}", nulledFields_eq_self_iff rest path]
    simp only [true_and]

end

/-- Values without a number that is not finite are read from their JSON form. -/
theorem ofJson_toJson {v : Value} {path : String} (h : v.WellFormed)
    (hfinite : v.nonFinitePath path = none) : ofJson v.toJson = v := by
  rw [ofJson_toJson_eq_nulled h]
  exact (v.nulled_eq_self_iff path).mpr hfinite

mutual

theorem wellFormed_ofJson : ∀ j : Json, (ofJson j).WellFormed
  | .null => trivial
  | .bool _ => trivial
  | .int n => by
    rw [ofJson, ofInt]
    split <;> trivial
  | .float _ => trivial
  | .str _ => trivial
  | .arr items => wellFormed_ofJsonItems items
  | .obj members => by
    have hmembers := wellFormed_ofJsonMembers members
    refine ⟨ascending_ofList _, wellFormedFields_iff.mpr ?_⟩
    exact forall_mem_foldl_insert (fun e he => absurd he List.not_mem_nil)
      (wellFormedFields_iff.mp hmembers)

theorem wellFormed_ofJsonItems : ∀ items : List Json, WellFormedItems (ofJsonItems items)
  | [] => trivial
  | v :: rest => ⟨wellFormed_ofJson v, wellFormed_ofJsonItems rest⟩

theorem wellFormed_ofJsonMembers : ∀ members : List (String × Json),
    WellFormedFields (ofJsonMembers members)
  | [] => trivial
  | (_, v) :: rest => ⟨wellFormed_ofJson v, wellFormed_ofJsonMembers rest⟩

end

end Value

/-! ## Documents -/
namespace Document

/-- Fields ascend at every level, and the names at the top are not those of the engine. -/
structure WellFormed (d : Document) : Prop where
  ascending : Ascending d.fields
  values : Value.WellFormedFields d.fields
  unreserved : ∀ e ∈ d.fields, isReserved e.1 = false

def nesting (d : Document) : Nat := Value.nestingFields d.fields + 1

variable {d : Document}

/-- The fields that the engine assigns. -/
def assigned (d : Document) : Keyed String Json :=
  ofList ((d.id.map fun s => (idField, Json.str s)).toList
    ++ (d.createdAt.map fun t => (createdField, Json.int t.toInt)).toList
    ++ (d.updatedAt.map fun t => (updatedField, Json.int t.toInt)).toList)

theorem members_eq (d : Document) : d.members =
    (Value.toJsonMembers d.fields).foldl (fun m e => m.insert e.1 e.2) d.assigned := by
  rw [members, assigned, ofList, ofList, List.foldl_append]

theorem get?_insert_option {α : Type} (m : Keyed String Json) (o : Option α) (f : α → Json)
    (name k : String) :
    Keyed.get? k ((o.map fun x => (name, f x)).toList.foldl (fun m e => m.insert e.1 e.2) m) =
      if k = name then (o.map f).or (Keyed.get? k m) else Keyed.get? k m := by
  cases o with
  | none => simp
  | some v =>
    simp only [Option.map_some, Option.toList_some, List.foldl_cons, List.foldl_nil]
    by_cases hk : k = name
    · rw [if_pos hk, hk, get?_insert_same, Option.some_or]
    · rw [if_neg hk, get?_insert_ne hk]

theorem get?_assigned (d : Document) (k : String) : Keyed.get? k d.assigned =
    if k = updatedField then d.updatedAt.map fun t => .int t.toInt
    else if k = createdField then d.createdAt.map fun t => .int t.toInt
    else if k = idField then d.id.map .str
    else none := by
  have hnames : idField ≠ createdField ∧ idField ≠ updatedField ∧ createdField ≠ updatedField := by
    decide
  rw [assigned, ofList, List.foldl_append, List.foldl_append, get?_insert_option,
    get?_insert_option, get?_insert_option]
  by_cases hupdated : k = updatedField
  · simp [hupdated, hnames.2.1.symm, hnames.2.2.symm, Keyed.get?]
  · by_cases hcreated : k = createdField
    · simp [hcreated, hnames.1.symm, hnames.2.2, Keyed.get?]
    · simp [hupdated, hcreated, Keyed.get?]

theorem ascending_assigned (d : Document) : Ascending d.assigned := ascending_ofList _

theorem ascending_members (d : Document) : Ascending d.members := by
  rw [members_eq]
  exact d.ascending_assigned.foldl_insert _

theorem isReserved_assigned {k : String} (h : isReserved k = false) :
    k ≠ updatedField ∧ k ≠ createdField ∧ k ≠ idField := by
  refine ⟨?_, ?_, ?_⟩ <;> rintro rfl <;> revert h <;> decide

theorem get?_members (h : Ascending d.fields) (k : String) :
    Keyed.get? k d.members =
      ((Keyed.get? k d.fields).map Value.toJson).or (Keyed.get? k d.assigned) := by
  rw [members_eq, Value.toJsonMembers_eq,
    get?_foldl_insert d.ascending_assigned (ascending_mapValues.mpr h), get?_mapValues]

theorem WellFormed.get?_fields (h : d.WellFormed) {k : String} (hk : isReserved k) :
    Keyed.get? k d.fields = none := by
  cases hget : Keyed.get? k d.fields with
  | none => rfl
  | some v =>
    have := h.unreserved (k, v) (mem_of_get? hget)
    rw [hk] at this
    cases this

theorem WellFormed.get?_reserved (h : d.WellFormed) {k : String} (hk : isReserved k) :
    Keyed.get? k d.members = Keyed.get? k d.assigned := by
  rw [get?_members h.ascending, h.get?_fields hk]
  rfl

theorem WellFormed.stripReserved_fields (h : d.WellFormed) : d.stripReserved.fields = d.fields :=
  List.filter_eq_self.mpr fun e he => by simp [h.unreserved e he]

/-- The names of users are those of the fields, whatever the engine assigns. -/
theorem filter_members (h : Ascending d.fields) :
    (d.members.filter fun e => !isReserved e.1) =
      Value.toJsonMembers d.stripReserved.fields := by
  have hstripped : Ascending d.stripReserved.fields := h.sublist List.filter_sublist
  rw [Value.toJsonMembers_eq]
  refine ext (d.ascending_members.sublist List.filter_sublist) (ascending_mapValues.mpr hstripped)
    fun k => ?_
  rw [get?_filter d.ascending_members (fun k => !isReserved k), get?_members h, get?_mapValues,
    stripReserved, get?_filter h (fun k => !isReserved k)]
  cases hk : isReserved k with
  | true => rfl
  | false =>
    obtain ⟨hupdated, hcreated, hid⟩ := isReserved_assigned hk
    rw [get?_assigned, if_neg hupdated, if_neg hcreated, if_neg hid, Option.or_none]
    rfl

theorem clockOfJson_int (t : Int64) : clockOfJson (.int t.toInt) = some t := by
  rw [clockOfJson, if_pos ⟨t.minValue_le_toInt, t.toInt_le⟩, Int64.ofInt_toInt]

theorem clock_roundTrip (o : Option Int64) :
    (o.map fun t => Json.int t.toInt).bind clockOfJson = o := by
  cases o with
  | none => rfl
  | some t => exact clockOfJson_int t

theorem nulledFields_eq_self_iff (d : Document) :
    Value.nulledFields d.fields = d.fields ↔ d.nonFinitePath = none := by
  rw [nonFinitePath, List.findSome?_eq_none_iff]
  induction d.fields with
  | nil => simp [Value.nulledFields]
  | cons e rest ih =>
    obtain ⟨k, v⟩ := e
    rw [Value.nulledFields, List.cons.injEq, Prod.mk.injEq, ih, List.forall_mem_cons,
      v.nulled_eq_self_iff k]
    simp only [true_and]

/-- What is read from the JSON form of a document. -/
theorem ofJson_toJson_eq_nulled (h : d.WellFormed) :
    ofJson d.toJson = .ok { d with fields := Value.nulledFields d.fields } := by
  have hid : Keyed.get? idField d.members = d.id.map .str := by
    rw [h.get?_reserved rfl, get?_assigned]
    simp [show idField ≠ updatedField by decide, show idField ≠ createdField by decide]
  have hcreated : (Keyed.get? createdField d.members).bind clockOfJson = d.createdAt := by
    rw [h.get?_reserved rfl, get?_assigned, if_neg (by decide), if_pos rfl]
    exact clock_roundTrip d.createdAt
  have hupdated : (Keyed.get? updatedField d.members).bind clockOfJson = d.updatedAt := by
    rw [h.get?_reserved rfl, get?_assigned, if_pos rfl]
    exact clock_roundTrip d.updatedAt
  have hfields : Value.ofJsonMembers (d.members.filter fun e => !isReserved e.1) =
      Value.nulledFields d.fields := by
    rw [filter_members h.ascending, h.stripReserved_fields]
    exact Value.ofJsonMembers_toJsonMembers h.values
  rw [toJson, ofJson]
  simp only [ofList_of_ascending d.ascending_members, hid, hcreated, hupdated, hfields]
  obtain ⟨id, fields, createdAt, updatedAt⟩ := d
  cases id <;> rfl

/-- A document is read from its JSON form. -/
theorem ofJson_toJson (h : d.WellFormed) (hfinite : d.nonFinitePath = none) :
    ofJson d.toJson = .ok d := by
  rw [ofJson_toJson_eq_nulled h, d.nulledFields_eq_self_iff.mpr hfinite]

theorem forall_mem_assigned {P : Json → Prop} (hstr : ∀ s, P (.str s))
    (hint : ∀ t : Int64, P (.int t.toInt)) (d : Document) : ∀ e ∈ d.assigned, P e.2 := by
  refine forall_mem_foldl_insert (fun e he => absurd he List.not_mem_nil) fun e he => ?_
  simp only [List.mem_append, Option.mem_toList, Option.map_eq_some_iff] at he
  rcases he with (⟨s, -, rfl⟩ | ⟨t, -, rfl⟩) | ⟨t, -, rfl⟩
  · exact hstr s
  · exact hint t
  · exact hint t

theorem printable_toJson (d : Document) : d.toJson.Printable := by
  refine Json.printableMembers_iff.mpr ?_
  rw [members_eq]
  refine forall_mem_foldl_insert (P := Json.Printable)
    (forall_mem_assigned (fun _ => trivial) (fun t => ?_) d)
    (Json.printableMembers_iff.mp (Value.printable_toJsonMembers d.fields))
  exact Value.printable_toJson (.int t)

theorem depth_toJson_le_iff (h : Ascending d.fields) (n : Nat) :
    d.toJson.depth ≤ n ↔ d.nesting ≤ n := by
  cases n with
  | zero => exact iff_of_false (Nat.not_succ_le_zero _) (Nat.not_succ_le_zero _)
  | succ n =>
    rw [toJson, Json.depth, nesting, Nat.add_le_add_iff_right, Nat.add_le_add_iff_right,
      ← Value.depth_toJsonMembers, Json.depthMembers_le_iff, Json.depthMembers_le_iff]
    constructor
    · rintro hall ⟨k, j⟩ he
      refine hall (k, j) (mem_of_get? ?_)
      have hfields : Ascending (mapValues Value.toJson d.fields) := ascending_mapValues.mpr h
      rw [Value.toJsonMembers_eq] at he
      rw [get?_members h, ← get?_mapValues, get?_of_mem hfields he, Option.some_or]
    · intro hall
      rw [members_eq]
      have hassigned := forall_mem_assigned (P := fun j : Json => j.depth ≤ n)
        (fun _ => Nat.zero_le n) (fun _ => Nat.zero_le n) d
      exact forall_mem_foldl_insert (P := fun j : Json => j.depth ≤ n) hassigned hall

theorem decode_encode_eq (h : Ascending d.fields) :
    decode d.encode =
      if d.nesting ≤ Json.depthLimit then ofJson d.toJson else .error .invalidJson := by
  rw [decode, encode, Log.fromUTF8?_eq_some.mpr rfl, Option.bind_some,
    Json.parse_render d.printable_toJson]
  simp only [depth_toJson_le_iff h]
  by_cases hdepth : d.nesting ≤ Json.depthLimit
  · rw [if_pos hdepth, if_pos hdepth]
  · rw [if_neg hdepth, if_neg hdepth]

/-- A record is read as the document that was written, or not at all. -/
theorem decode_encode (h : d.WellFormed) (hfinite : d.nonFinitePath = none) :
    decode d.encode =
      if d.nesting ≤ Json.depthLimit then .ok d else .error .invalidJson := by
  rw [decode_encode_eq h.ascending, ofJson_toJson h hfinite]

/-- What is read are the fields with names of users, if the identifier is found to be one. -/
theorem map_fields_decode_encode (h : (Value.object d.fields).WellFormed)
    (hfinite : d.nonFinitePath = none) :
    (decode d.encode).map (·.fields) =
      if d.nesting ≤ Json.depthLimit then
        (match Keyed.get? idField d.members with
          | some j => idOfJson j
          | none => .ok none).map fun _ => d.stripReserved.fields
      else .error .invalidJson := by
  have hmembers : Value.ofJsonMembers (d.members.filter fun e => !isReserved e.1) =
      d.stripReserved.fields := by
    have hvalues : Value.WellFormedFields d.stripReserved.fields :=
      Value.wellFormedFields_iff.mpr fun e he =>
        Value.wellFormedFields_iff.mp h.2 e (List.mem_of_mem_filter he)
    have hstripped : d.stripReserved.nonFinitePath = none :=
      List.findSome?_eq_none_iff.mpr fun e he =>
        List.findSome?_eq_none_iff.mp hfinite e (List.mem_of_mem_filter he)
    rw [filter_members h.1, Value.ofJsonMembers_toJsonMembers hvalues]
    exact d.stripReserved.nulledFields_eq_self_iff.mpr hstripped
  rw [decode_encode_eq h.1, toJson, ofJson]
  simp only [ofList_of_ascending d.ascending_members, hmembers]
  split
  · cases Keyed.get? idField d.members with
    | none => rfl
    | some j =>
      dsimp only
      cases idOfJson j <;> rfl
  · rfl

theorem stripReserved_of_decode_encode {w : Document} (h : (Value.object w.fields).WellFormed)
    (hfinite : w.nonFinitePath = none) (hd : decode w.encode = .ok d) :
    w.stripReserved.fields = d.fields := by
  have hread := map_fields_decode_encode h hfinite
  rw [hd] at hread
  split at hread
  · cases hid : (match Keyed.get? idField w.members with
      | some j => idOfJson j
      | none => .ok none) with
    | error e => rw [hid] at hread; cases hread
    | ok id => rw [hid] at hread; exact (Except.ok.inj hread).symm
  · cases hread

theorem wellFormed_of_members {ms : Keyed String Json} (h : Ascending ms)
    (hd : d.fields = Value.ofJsonMembers (ms.filter fun e => !isReserved e.1)) :
    d.WellFormed := by
  have hfiltered : Ascending (ms.filter fun e => !isReserved e.1) :=
    h.sublist List.filter_sublist
  refine ⟨?_, ?_, fun e he => ?_⟩
  · rw [hd, Value.ofJsonMembers_eq]
    exact ascending_mapValues.mpr hfiltered
  · rw [hd]
    exact Value.wellFormed_ofJsonMembers _
  · rw [hd, Value.ofJsonMembers_eq, mem_mapValues] at he
    obtain ⟨j, hj, -⟩ := he
    simpa using (List.mem_filter.mp hj).2

theorem fields_of_ofJson {members : List (String × Json)} (h : ofJson (.obj members) = .ok d) :
    d.fields = Value.ofJsonMembers
      ((ofList members : Keyed String Json).filter fun e => !isReserved e.1) := by
  rw [ofJson] at h
  dsimp only at h
  split at h
  next j _ =>
    cases hid : idOfJson j with
    | error e => rw [hid] at h; cases h
    | ok id => rw [hid] at h; cases h; rfl
  next => cases h; rfl

/-- What is read is well-formed, whatever text it was read from. -/
theorem wellFormed_of_ofJson {j : Json} (h : ofJson j = .ok d) : d.WellFormed := by
  cases j with
  | obj members => exact wellFormed_of_members (ascending_ofList members) (fields_of_ofJson h)
  | _ => cases h

theorem wellFormed_of_decode {record : Bytes} (h : decode record = .ok d) : d.WellFormed := by
  rw [decode] at h
  split at h
  · exact wellFormed_of_ofJson h
  · cases h

/-- A document with names of users only is read from its JSON form with null for each number that
is not finite, and else as it was: its identifier and clock readings in any case, and its fields,
whole numbers apart from floats and these bit for bit, exactly if the search finds no such number.
So is its record, unless it nests too deep to be read. -/
theorem lossless_iff_finite (h : (Value.object d.fields).WellFormed)
    (hnames : ∀ e ∈ d.fields, isReserved e.1 = false) :
    ofJson d.toJson = .ok { d with fields := Value.nulledFields d.fields } ∧
      (ofJson d.toJson = .ok d ↔ d.nonFinitePath = none) ∧
      (decode d.encode = .ok d ↔ d.nonFinitePath = none ∧ d.nesting ≤ Json.depthLimit) := by
  have hread := ofJson_toJson_eq_nulled ⟨h.1, h.2, hnames⟩
  have hself : ofJson d.toJson = .ok d ↔ d.nonFinitePath = none := by
    rw [hread, ← d.nulledFields_eq_self_iff, Except.ok.injEq]
    constructor
    · intro heq
      exact congrArg Document.fields heq
    · intro heq
      rw [heq]
  refine ⟨hread, hself, ?_⟩
  rw [decode_encode_eq h.1]
  split
  next hdepth => rw [hself, and_iff_left hdepth]
  next hdepth => exact iff_of_false nofun fun hboth => hdepth hboth.2

/-- One and minus zero as floats, and an infinity two levels down. -/
def unboundedWithin : Document :=
  { id := some "x"
    createdAt := some (-1)
    fields := [
      ("a", .array [.int 1, .float ⟨0x3ff0000000000000⟩, .float ⟨0x8000000000000000⟩]),
      ("b", .object [("c", .float Binary64.infinity), ("d", .null)])] }

theorem lossless_iff_finite_within :
    (Value.object unboundedWithin.fields).WellFormed ∧
      (∀ e ∈ unboundedWithin.fields, isReserved e.1 = false) ∧
      unboundedWithin.nonFinitePath = some "b.c" ∧
      ofJson unboundedWithin.toJson ≠ .ok unboundedWithin ∧
      ofJson unboundedWithin.toJson = .ok { unboundedWithin with
        fields := Value.nulledFields unboundedWithin.fields } := by
  have hwell : (Value.object unboundedWithin.fields).WellFormed := by
    have houter : Ascending unboundedWithin.fields := by
      unfold Ascending unboundedWithin
      decide
    have hinner : Ascending [("c", Value.float Binary64.infinity), ("d", .null)] := by
      unfold Ascending
      decide
    exact ⟨houter, ⟨trivial, trivial, trivial, trivial⟩, ⟨hinner, trivial, trivial, trivial⟩,
      trivial⟩
  have hnames : ∀ e ∈ unboundedWithin.fields, isReserved e.1 = false := by decide
  have hpath : unboundedWithin.nonFinitePath = some "b.c" := by decide
  obtain ⟨hread, hself, -⟩ := lossless_iff_finite hwell hnames
  refine ⟨hwell, hnames, hpath, ?_, hread⟩
  rw [Ne, hself, hpath]
  exact nofun

end Document
end DocBase
