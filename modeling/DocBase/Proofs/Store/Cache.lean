import DocBase.Proofs.Store.Equivalence

/-! How large a cache grows. It never holds more records than its capacity, and the queue has an
entry for each. The queue is kept to twice the capacity but for records that come back while an
entry from before still stands in it: each may leave one entry more, and if it is cached, no trim
takes that away. -/
namespace DocBase
open Keyed Std

namespace Log

/-! ## Repeated entries -/

/-- How many entries of a queue come again further back. -/
def repeats : List String → Nat
  | [] => 0
  | id :: rest => (if id ∈ rest then 1 else 0) + repeats rest

theorem repeats_concat (queue : List String) (id : String) :
    repeats (queue ++ [id]) = repeats queue + if id ∈ queue then 1 else 0 := by
  induction queue with
  | nil => rfl
  | cons front rest ih =>
    rw [List.cons_append, repeats, repeats, ih]
    by_cases hid : front = id
    · subst hid
      simp only [List.mem_append, List.mem_cons, true_or, or_true, if_true]
      omega
    · simp only [List.mem_append, List.mem_cons, List.not_mem_nil, hid, Ne.symm hid, or_false,
        false_or]
      omega

theorem repeats_le_of_sublist {queue queue' : List String} (h : queue'.Sublist queue) :
    repeats queue' ≤ repeats queue := by
  induction h with
  | slnil => exact Nat.le_refl _
  | cons id _ ih => exact Nat.le_add_left_of_le ih
  | @cons_cons queue' queue id hsub ih =>
    refine Nat.add_le_add ?_ ih
    split
    next hid => rw [if_pos (hsub.subset hid)]
    next => exact Nat.zero_le _

/-- Besides those that come again there are no more entries than there are names for them. -/
theorem length_le_of_forall_mem {queue names : List String} (h : ∀ id ∈ queue, id ∈ names) :
    queue.length ≤ names.length + repeats queue := by
  induction queue generalizing names with
  | nil => exact Nat.zero_le _
  | cons front rest ih =>
    obtain ⟨hfront, hrest⟩ := List.forall_mem_cons.mp h
    rw [List.length_cons, repeats]
    by_cases hid : front ∈ rest
    · have hle := ih hrest
      rw [if_pos hid]
      omega
    · -- the other entries have the other names
      have hothers : ∀ id ∈ rest, id ∈ names.erase front := fun id hmem =>
        (List.mem_erase_of_ne (ne_of_mem_of_not_mem hmem hid)).mpr (hrest id hmem)
      have hle := ih hothers
      have hpos := List.length_pos_of_mem hfront
      rw [List.length_erase_of_mem hfront] at hle
      rw [if_neg hid]
      omega

namespace Cache

/-! ## Calls -/

inductive Call
  | insert (id : String) (record : Bytes)
  | remove (id : String)
  | clear

def call (c : Cache) : Call → Cache
  | .insert id record => c.insert id record
  | .remove id => c.remove id
  | .clear => c.clear

def callAll (c : Cache) (calls : List Call) : Cache := calls.foldl call c

/-- Whether a record that is put in comes back: it is not cached, and the queue still has an entry
for it from before. -/
def ComesBack (c : Cache) (id : String) : Prop :=
  c.capacity ≠ 0 ∧ id ∉ c.records.keys ∧ id ∈ c.queue

instance (c : Cache) (id : String) : Decidable (c.ComesBack id) :=
  inferInstanceAs (Decidable (_ ∧ _ ∧ _))

/-- How many records have come back since the queue was last emptied, after a call. -/
def returnsAfter (c : Cache) (returns : Nat) : Call → Nat
  | .insert id _ => if c.ComesBack id then returns + 1 else returns
  | .remove _ => returns
  | .clear => 0

def returnsAfterAll (c : Cache) (returns : Nat) : List Call → Nat
  | [] => returns
  | call :: rest => (c.call call).returnsAfterAll (c.returnsAfter returns call) rest

/-! ## What calls keep -/

/-- The bounds of a cache into which some records have come back. -/
structure Bounded (c : Cache) (returns : Nat) : Prop where
  ascending : Ascending c.records
  records_le : c.records.length ≤ c.capacity
  queued : ∀ id ∈ c.records.keys, id ∈ c.queue
  idle : c.capacity = 0 → c.queue = []
  repeats_le : repeats c.queue ≤ returns
  queue_le : c.queue.length ≤ max (2 * c.capacity) (c.capacity + returns)

theorem bounded_empty {c : Cache} (hrecords : c.records = []) (hqueue : c.queue = [])
    (returns : Nat) : c.Bounded returns := by
  constructor
  · rw [hrecords]
    exact ascending_nil
  · simp [hrecords]
  · simp [hrecords, Keyed.keys]
  · exact fun _ => hqueue
  · simp [hqueue, repeats]
  · simp [hqueue]

/-- Evicting leaves a queue for the records that stay, and no more of these than the capacity. -/
theorem evict_bounded (capacity : Nat) {queue : List String} {records : Keyed String Bytes}
    (h : Ascending records) (hqueued : ∀ id ∈ records.keys, id ∈ queue) :
    (evict capacity queue records).1.Sublist queue ∧
      Ascending (evict capacity queue records).2 ∧
      (evict capacity queue records).2.length ≤ capacity ∧
      ∀ id ∈ (evict capacity queue records).2.keys, id ∈ (evict capacity queue records).1 := by
  induction queue generalizing records with
  | nil =>
    have hnil : records = [] := by
      have hkeys := List.eq_nil_iff_forall_not_mem.mpr fun id hid =>
        absurd (hqueued id hid) List.not_mem_nil
      exact List.map_eq_nil_iff.mp hkeys
    subst hnil
    exact ⟨List.Sublist.refl _, ascending_nil, Nat.zero_le _, hqueued⟩
  | cons front rest ih =>
    rw [evict]
    split
    · have hrest : ∀ id ∈ (records.erase front).keys, id ∈ rest := by
        intro id hid
        obtain ⟨hne, hid⟩ := (mem_keys_erase h).mp hid
        exact (List.mem_cons.mp (hqueued id hid)).resolve_left hne
      obtain ⟨hsub, hlaws⟩ := ih (h.erase front) hrest
      exact ⟨hsub.trans (List.sublist_cons_self _ _), hlaws⟩
    next hle => exact ⟨List.Sublist.refl _, h, Nat.le_of_not_lt hle, hqueued⟩

theorem evict_of_le {capacity : Nat} {records : Keyed String Bytes}
    (h : records.length ≤ capacity) (queue : List String) :
    evict capacity queue records = (queue, records) := by
  cases queue with
  | nil => rfl
  | cons id rest => rw [evict, if_neg (Nat.not_lt.mpr h)]

/-- What is left of a queue that is too long. -/
def trim (capacity : Nat) (queue : List String) (records : Keyed String Bytes) : List String :=
  if capacity * 2 < queue.length then queue.filter fun id => records.contains id else queue

/-- The identifiers queued and the records cached once a record was put in and others let go. -/
def admitted (c : Cache) (id : String) (record : Bytes) : List String × Keyed String Bytes :=
  evict c.capacity (if c.records.contains id then c.queue else c.queue ++ [id])
    (c.records.insert id record)

theorem insert_eq {c : Cache} (h : c.capacity ≠ 0) (id : String) (record : Bytes) :
    c.insert id record = { c with
      records := (c.admitted id record).2
      queue := trim c.capacity (c.admitted id record).1 (c.admitted id record).2 } := by
  rw [insert, if_neg h]
  rfl

theorem trim_sublist (capacity : Nat) (queue : List String) (records : Keyed String Bytes) :
    (trim capacity queue records).Sublist queue := by
  unfold trim
  split
  · exact List.filter_sublist
  · exact List.Sublist.refl _

theorem mem_trim {capacity : Nat} {queue : List String} {records : Keyed String Bytes}
    {id : String} (hid : id ∈ queue) (hcached : records.contains id = true) :
    id ∈ trim capacity queue records := by
  unfold trim
  split
  · exact List.mem_filter.mpr ⟨hid, hcached⟩
  · exact hid

/-- A trimmed queue that is still too long is so by its entries for cached records. -/
theorem length_trim_le_iff (capacity : Nat) (queue : List String) (records : Keyed String Bytes) :
    (trim capacity queue records).length ≤ 2 * capacity ↔
      ((trim capacity queue records).filter fun id => records.contains id).length ≤
        2 * capacity := by
  unfold trim
  split
  · simp only [List.filter_filter, Bool.and_self]
  next hle =>
    have hfilter := List.length_filter_le (fun id => records.contains id) queue
    omega

@[simp] theorem capacity_insert (c : Cache) (id : String) (record : Bytes) :
    (c.insert id record).capacity = c.capacity := by
  unfold insert
  split <;> rfl

theorem capacity_call (c : Cache) (call : Call) : (c.call call).capacity = c.capacity := by
  cases call with
  | insert id record => exact capacity_insert c id record
  | remove id => rfl
  | clear => rfl

theorem capacity_callAll (c : Cache) (calls : List Call) :
    (c.callAll calls).capacity = c.capacity := by
  induction calls generalizing c with
  | nil => rfl
  | cons call rest ih => exact (ih (c.call call)).trans (capacity_call c call)

variable {c : Cache} {returns : Nat}

/-- The queue that a record is put into, and how many of its entries come again. -/
theorem Bounded.repeats_queued (h : c.Bounded returns) (hidle : c.capacity ≠ 0) (id : String) :
    repeats (if c.records.contains id then c.queue else c.queue ++ [id]) ≤
      if c.ComesBack id then returns + 1 else returns := by
  have hle := h.repeats_le
  have hcontains : id ∈ c.records.keys ↔ c.records.contains id = true :=
    mem_keys_iff_contains h.ascending
  by_cases hid : id ∈ c.records.keys
  · have hback : ¬c.ComesBack id := fun hback => hback.2.1 hid
    rw [if_pos (hcontains.mp hid), if_neg hback]
    exact hle
  · rw [if_neg (mt hcontains.mpr hid), repeats_concat]
    by_cases hqueue : id ∈ c.queue
    · have hback : c.ComesBack id := ⟨hidle, hid, hqueue⟩
      rw [if_pos hqueue, if_pos hback]
      exact Nat.add_le_add_right hle 1
    · have hback : ¬c.ComesBack id := fun hback => hqueue hback.2.2
      rw [if_neg hqueue, if_neg hback]
      exact hle

theorem Bounded.insert (h : c.Bounded returns) (id : String) (record : Bytes) :
    (c.insert id record).Bounded (if c.ComesBack id then returns + 1 else returns) := by
  by_cases hidle : c.capacity = 0
  · have hback : ¬c.ComesBack id := fun hback => hback.1 hidle
    rw [if_neg hback, Cache.insert, if_pos hidle]
    exact h
  have hqueued : ∀ k ∈ (c.records.insert id record).keys,
      k ∈ if c.records.contains id then c.queue else c.queue ++ [id] := by
    intro k hk
    rcases (mem_keys_insert h.ascending).mp hk with rfl | hk
    · split
      next hid => exact h.queued _ ((mem_keys_iff_contains h.ascending).mpr hid)
      next => simp
    · split
      · exact h.queued k hk
      · exact List.mem_append_left _ (h.queued k hk)
  have hrepeats := h.repeats_queued hidle id
  obtain ⟨hsub, hasc, hle, hall⟩ :=
    evict_bounded c.capacity (h.ascending.insert id record) hqueued
  change (c.admitted id record).1.Sublist _ at hsub
  have htrimmed := (repeats_le_of_sublist
    ((trim_sublist c.capacity (c.admitted id record).1 (c.admitted id record).2).trans hsub)).trans
      hrepeats
  rw [insert_eq hidle]
  generalize hreturns : (if c.ComesBack id then returns + 1 else returns) = after at *
  refine ⟨hasc, hle, fun k hk => ?_, fun hzero => absurd hzero hidle, htrimmed, ?_⟩
  · exact mem_trim (hall k hk) ((mem_keys_iff_contains hasc).mp hk)
  · dsimp only
    by_cases hlong : c.capacity * 2 < (c.admitted id record).1.length
    · have hnamed : ∀ k ∈ trim c.capacity (c.admitted id record).1 (c.admitted id record).2,
          k ∈ (c.admitted id record).2.keys := by
        intro k hk
        rw [trim, if_pos hlong] at hk
        exact (mem_keys_iff_contains hasc).mpr (List.mem_filter.mp hk).2
      have hlength := length_le_of_forall_mem hnamed
      rw [Keyed.keys, List.length_map] at hlength
      change (c.admitted id record).2.length ≤ _ at hle
      omega
    · rw [trim, if_neg hlong]
      omega

theorem Bounded.remove (h : c.Bounded returns) (id : String) : (c.remove id).Bounded returns := by
  have hsub := erase_sublist id c.records
  refine ⟨h.ascending.erase id, hsub.length_le.trans h.records_le, fun k hk => ?_, h.idle,
    h.repeats_le, h.queue_le⟩
  exact h.queued k ((mem_keys_erase h.ascending).mp hk).2

theorem Bounded.call (h : c.Bounded returns) (call : Call) :
    (c.call call).Bounded (c.returnsAfter returns call) := by
  cases call with
  | insert id record => exact h.insert id record
  | remove id => exact h.remove id
  | clear => exact bounded_empty rfl rfl 0

theorem Bounded.callAll (h : c.Bounded returns) (calls : List Call) :
    (c.callAll calls).Bounded (c.returnsAfterAll returns calls) := by
  induction calls generalizing c returns with
  | nil => exact h
  | cons call rest ih => exact ih (h.call call)

/-! ## Records that come back -/

/-- A record is taken out and put in again, so many times. -/
def churn (id : String) (record : Bytes) : Nat → List Call
  | 0 => []
  | rounds + 1 => .remove id :: .insert id record :: churn id record rounds

/-- A cache that holds a record, and whose queue names no other than cached ones. -/
structure Settled (c : Cache) (id : String) : Prop where
  cached : id ∈ c.records.keys
  named : ∀ k ∈ c.queue, k ∈ c.records.keys

theorem Settled.named_concat {id : String} (h : c.Settled id) :
    ∀ k ∈ c.queue ++ [id], k ∈ c.records.keys := by
  rw [List.forall_mem_append, List.forall_mem_singleton]
  exact ⟨h.named, h.cached⟩

/-- No trim takes away the entry that a record leaves behind when it comes back. -/
theorem Bounded.insert_remove (h : c.Bounded returns) {id : String} (hid : c.Settled id)
    (record : Bytes) :
    (c.remove id).ComesBack id ∧ (c.remove id).insert id record =
      { c with records := (c.records.erase id).insert id record, queue := c.queue ++ [id] } := by
  have herase := h.ascending.erase id
  have hcontains : c.records.contains id = true := (mem_keys_iff_contains h.ascending).mp hid.cached
  have habsent : id ∉ (c.records.erase id).keys := fun hmem =>
    ((mem_keys_erase h.ascending).mp hmem).1 rfl
  have hlost : (c.records.erase id).contains id = false :=
    Bool.eq_false_iff.mpr (mt (mem_keys_iff_contains herase).mpr habsent)
  have hlength : ((c.records.erase id).insert id record).length = c.records.length := by
    have hless := length_erase id c.records
    rw [if_pos hcontains] at hless
    rw [length_insert, if_pos (by simpa [Keyed.contains] using hlost), hless]
  have hidle : c.capacity ≠ 0 := fun hzero => by
    have hqueued := h.queued id hid.cached
    rw [h.idle hzero] at hqueued
    exact List.not_mem_nil hqueued
  refine ⟨⟨hidle, habsent, h.queued id hid.cached⟩, ?_⟩
  have hadmitted : (c.remove id).admitted id record =
      (c.queue ++ [id], (c.records.erase id).insert id record) := by
    rw [admitted, Cache.remove]
    dsimp only
    rw [hlost, evict_of_le (hlength.trans_le h.records_le)]
    rfl
  have hkept : (c.queue ++ [id]).filter
      (fun k => ((c.records.erase id).insert id record).contains k) = c.queue ++ [id] := by
    refine List.filter_eq_self.mpr fun k hk => ?_
    rw [← mem_keys_iff_contains (herase.insert id record),
      mem_keys_insert_erase h.ascending hid.cached]
    exact hid.named_concat k hk
  rw [insert_eq (c := c.remove id) hidle, hadmitted]
  dsimp only
  rw [trim, hkept, ite_self]
  rfl

theorem Bounded.settled_insert_remove (h : c.Bounded returns) {id : String}
    (hid : c.Settled id) (record : Bytes) : ((c.remove id).insert id record).Settled id := by
  rw [(h.insert_remove hid record).2]
  constructor
  · exact (mem_keys_insert_erase h.ascending hid.cached record).mpr hid.cached
  · intro k hk
    exact (mem_keys_insert_erase h.ascending hid.cached record).mpr (hid.named_concat k hk)

/-- Each time that a record comes back its queue is longer by one entry. -/
theorem Bounded.queue_churn (h : c.Bounded returns) {id : String} (hid : c.Settled id)
    (record : Bytes) (rounds : Nat) :
    (c.callAll (churn id record rounds)).queue = c.queue ++ List.replicate rounds id ∧
      c.returnsAfterAll returns (churn id record rounds) = returns + rounds := by
  induction rounds generalizing c returns with
  | zero => exact ⟨(List.append_nil _).symm, rfl⟩
  | succ rounds ih =>
    obtain ⟨hback, hround⟩ := h.insert_remove hid record
    have hbounded := (h.remove id).insert id record
    rw [if_pos hback] at hbounded
    obtain ⟨hqueue, hreturns⟩ := ih hbounded (h.settled_insert_remove hid record)
    constructor
    · change (((c.remove id).insert id record).callAll _).queue = _
      rw [hqueue, hround]
      simp only [List.append_assoc, List.singleton_append, List.replicate_succ]
    · change ((c.remove id).insert id record).returnsAfterAll
        (if (c.remove id).ComesBack id then returns + 1 else returns) _ = _
      rw [if_pos hback, hreturns]
      omega

/-! ## What holds of every cache -/

/-- What holds of a cache of some capacity, into which so many records have come back. -/
structure Governed (capacity : Nat) (c : Cache) (returns : Nat) : Prop where
  records_le : c.records.length ≤ capacity
  queued : ∀ id ∈ c.records.keys, id ∈ c.queue
  /-- Of the records that came back each may have left one entry more than there is room for. -/
  queue_le : c.queue.length ≤ max (2 * capacity) (capacity + returns)
  /-- The queue is short after an insertion just where it has few entries for cached records. -/
  short_iff : ∀ id record,
    let after := c.insert id record
    after.queue.length ≤ 2 * capacity ↔
      (after.queue.filter fun k => after.records.contains k).length ≤ 2 * capacity
  /-- A record that comes back to a queue of cached records alone leaves one entry each time. -/
  grows : ∀ id record rounds, c.Settled id →
    (c.callAll (churn id record rounds)).queue = c.queue ++ List.replicate rounds id ∧
      c.returnsAfterAll returns (churn id record rounds) = returns + rounds

theorem governed_callAll (capacity : Nat) (calls : List Call) :
    Governed capacity (callAll { capacity } calls)
      (returnsAfterAll { capacity } 0 calls) := by
  have h : (callAll { capacity } calls).Bounded (returnsAfterAll { capacity } 0 calls) :=
    (bounded_empty rfl rfl 0).callAll calls
  have hcapacity : (callAll { capacity } calls).capacity = capacity := capacity_callAll _ calls
  generalize returnsAfterAll { capacity } 0 calls = returns at *
  generalize callAll { capacity } calls = c at *
  subst hcapacity
  constructor
  · exact h.records_le
  · exact h.queued
  · exact h.queue_le
  · intro id record
    dsimp only
    by_cases hidle : c.capacity = 0
    · rw [Cache.insert, if_pos hidle, h.idle hidle]
      simp
    · rw [insert_eq hidle]
      exact length_trim_le_iff _ _ _
  · intro id record rounds hid
    exact h.queue_churn hid record rounds

/-- At a capacity of two, a record that comes back three times has four of five entries. The one
from the start is the next to go, and takes with it the record that was put in last. -/
example :
    let c := callAll { capacity := 2 }
      (.insert "a" .empty :: .insert "b" .empty :: churn "a" .empty 3)
    c.queue = ["a", "b", "a", "a", "a"] ∧ (c.insert "c" .empty).records.keys = ["b", "c"] := by
  decide

/-- A record alone is queued once. -/
theorem queue_insert_empty {capacity : Nat} (h : capacity ≠ 0) (id : String) (record : Bytes) :
    (insert { capacity } id record).queue = [id] ∧ (insert { capacity } id record).Settled id := by
  have hle : [(id, record)].length ≤ capacity := Nat.pos_of_ne_zero h
  have hadmitted : admitted { capacity } id record = ([id], [(id, record)]) := evict_of_le hle [id]
  have hshort : ¬capacity * 2 < [id].length := by
    rw [List.length_singleton]
    omega
  rw [insert_eq (c := { capacity }) h, hadmitted]
  dsimp only
  rw [trim, if_neg hshort]
  exact ⟨rfl, List.mem_singleton.mpr rfl, fun _ hk => hk⟩

/-- A cache is what calls make of another one. -/
def Follows (before after : Cache) : Prop := ∃ calls, after = before.callAll calls

theorem Follows.refl (c : Cache) : c.Follows c := ⟨[], rfl⟩

theorem Follows.trans {a b c : Cache} (h : a.Follows b) (h' : b.Follows c) : a.Follows c := by
  obtain ⟨calls, rfl⟩ := h
  obtain ⟨calls', rfl⟩ := h'
  exact ⟨calls ++ calls', List.foldl_append.symm⟩

theorem follows_call (c : Cache) (call : Call) : c.Follows (c.call call) := ⟨[call], rfl⟩

end Cache
end Log

/-! ## Stores -/

def Session.afterEvent (s : Session LogStore) : LogEvent → Session LogStore
  | .call c => (s.call c).2
  | .compact => { s with store := s.store.compact.2 }

def Session.afterEvents (s : Session LogStore) (events : List LogEvent) : Session LogStore :=
  events.foldl Session.afterEvent s

namespace LogStore
open Log

theorem cache_compact (s : LogStore) : s.compact.2.cache = s.cache := by
  rcases compact_cases s with h | ⟨log, index, -, h⟩
  · rw [h]
  · rw [h]
    rfl

theorem cache_compactIfDue (s : LogStore) : s.compactIfDue.cache = s.cache := by
  unfold compactIfDue
  split
  · exact cache_compact s
  · rfl

theorem follows_get (id : String) (s : LogStore) : s.cache.Follows (s.get id).2.cache := by
  rw [get, whenOpen]
  split
  · dsimp only
    split
    · exact .refl _
    · split
      · exact .refl _
      · split
        · exact Cache.follows_call _ (.insert id _)
        · exact .refl _
  · exact .refl _

theorem follows_put (id : String) (record : Bytes) (s : LogStore) :
    s.cache.Follows (s.put id record).2.cache := by
  rcases put_cases s id record with ⟨e, hput⟩ | ⟨-, -, hput⟩
  · rw [hput]
    exact .refl _
  · rw [hput, cache_compactIfDue]
    exact Cache.follows_call _ (.insert id record)

theorem follows_delete (id : String) (s : LogStore) : s.cache.Follows (s.delete id).2.cache := by
  rw [delete, whenOpen]
  split
  · dsimp only
    split
    · exact .refl _
    · split
      · exact .refl _
      · rw [cache_compactIfDue]
        exact Cache.follows_call _ (.remove id)
  · exact .refl _

theorem follows_close (s : LogStore) : s.cache.Follows s.close.2.cache := by
  rw [close]
  split
  · exact Cache.follows_call _ .clear
  · exact .refl _

theorem cache_scan (range : ScanRange) (s : LogStore) : (s.scan range).2.cache = s.cache := by
  rw [scan, whenOpen]
  split <;> rfl

theorem follows_nextOf (pending : List String) (s : LogStore) :
    s.cache.Follows (ScanCursor.nextOf pending s).2.2.cache := by
  induction pending generalizing s with
  | nil => exact .refl _
  | cons id rest ih =>
    have hget : s.cache.Follows (RecordStore.get id s).2.cache := follows_get id s
    rw [ScanCursor.nextOf]
    split
    next hread => rwa [hread] at hget
    next hread =>
      rw [hread] at hget
      exact hget.trans (ih _)
    next hread => rwa [hread] at hget

end LogStore

namespace Session
open Log

theorem follows_call (s : Session LogStore) (c : StoreCall) :
    s.store.cache.Follows (s.call c).2.store.cache := by
  cases c with
  | get id => exact LogStore.follows_get id s.store
  | put id record => exact LogStore.follows_put id record s.store
  | delete id => exact LogStore.follows_delete id s.store
  | scan range =>
    have hscan : (RecordStore.scan range s.store).2.cache = s.store.cache :=
      LogStore.cache_scan range s.store
    rw [call, Session.scan]
    split
    next hread =>
      rw [hread] at hscan
      exact hscan ▸ .refl _
    next hread =>
      rw [hread] at hscan
      exact hscan ▸ .refl _
  | next i =>
    rw [call, next]
    split
    · exact .refl _
    next cursor _ => exact LogStore.follows_nextOf cursor.pending s.store
  | size => exact .refl _
  | isEmpty => exact .refl _
  | stats => exact .refl _
  | isClosed => exact .refl _
  | close => exact LogStore.follows_close s.store

theorem follows_afterEvents (s : Session LogStore) (events : List LogEvent) :
    s.store.cache.Follows (s.afterEvents events).store.cache := by
  induction events generalizing s with
  | nil => exact .refl _
  | cons event rest ih =>
    refine Cache.Follows.trans ?_ (ih (s.afterEvent event))
    cases event with
    | call c => exact s.follows_call c
    | compact =>
      rw [afterEvent]
      dsimp only
      rw [LogStore.cache_compact]
      exact .refl _

end Session

/-! ## One record over and over -/

/-- A record is deleted and put again, so many times. -/
def putAgain (id : String) (record : Bytes) : Nat → List LogEvent
  | 0 => []
  | rounds + 1 => .call (.delete id) :: .call (.put id record) :: putAgain id record rounds

namespace LogStore
open Log

/-- An open store with the limits that it was opened with, and with these records alone. -/
structure Stores (c : StoreConfig) (s : LogStore) (records : Keyed String Bytes) : Prop where
  isOpen : s.isOpen = true
  recorded : ∃ fs, s.Recorded fs
  records_eq : s.records = records
  maxRecords : s.maxRecords = c.maxRecords
  maxBytes : s.maxBytes = c.maxBytes

variable {c : StoreConfig} {s : LogStore} {records : Keyed String Bytes}

theorem stores_open (c : StoreConfig) : (open_ c .empty).Stores c [] :=
  ⟨rfl, ⟨_, recorded_open c .empty⟩, rfl, rfl, rfl⟩

theorem Stores.compactIfDue (h : s.Stores c records) : s.compactIfDue.Stores c records := by
  obtain ⟨fs, hfs⟩ := h.recorded
  obtain ⟨hrecorded, hrecords⟩ := hfs.compactIfDue
  refine ⟨(isOpen_compactIfDue s).trans h.isOpen, hrecorded, hrecords.trans h.records_eq, ?_, ?_⟩
  · rcases compactIfDue_cases s with hsame | ⟨log, index, -, hcompact⟩
    · rw [hsame, h.maxRecords]
    · rw [hcompact, ← h.maxRecords]
      rfl
  · rcases compactIfDue_cases s with hsame | ⟨log, index, -, hcompact⟩
    · rw [hsame, h.maxBytes]
    · rw [hcompact, ← h.maxBytes]
      rfl

/-- A record for which there is room is put into an empty store. -/
theorem Stores.put (h : s.Stores c []) {id : String} {record : Bytes} (hfits : Encodable id record)
    (hroom : checkLimits c.maxRecords c.maxBytes 1 record.size = .ok ()) :
    (s.put id record).2.Stores c [(id, record)] ∧
      (s.put id record).2.cache = s.cache.insert id record := by
  obtain ⟨fs, hfs⟩ := h.recorded
  have hf := Frame.Fits.of_size hfits.1 hfits.2
  have hindex : s.index = [] := by
    rw [← List.length_eq_zero_iff, ← length_records, h.records_eq, List.length_nil]
  have hlive : s.liveBytes = 0 := by rw [hfs.live, h.records_eq, weigh_nil]
  rw [put_eq h.isOpen hfits, hindex, hlive, h.maxRecords, h.maxBytes]
  simp only [Keyed.get?, List.length_nil, Option.isNone_none, if_true, Option.map_none,
    Option.getD_none, Nat.sub_zero, Nat.zero_add, hroom]
  have hwritten : (s.written id record).Stores c [(id, record)] := by
    refine ⟨h.isOpen, ⟨_, hfs.written hf⟩, ?_, h.maxRecords, h.maxBytes⟩
    rw [hfs.records_written hf, h.records_eq]
    rfl
  exact ⟨hwritten.compactIfDue, cache_compactIfDue _⟩

theorem Stores.delete {id : String} {record : Bytes} (h : s.Stores c [(id, record)]) :
    (s.delete id).2.Stores c [] ∧ (s.delete id).2.cache = s.cache.remove id := by
  obtain ⟨fs, hfs⟩ := h.recorded
  have hget : s.records.get? id = some record := by
    rw [h.records_eq, Keyed.get?, ReflOrd.compare_self]
  rw [get?_records, Option.map_eq_some_iff] at hget
  obtain ⟨old, hold, -⟩ := hget
  rw [hfs.delete h.isOpen id, hold]
  dsimp only
  have hremoved : (s.removed id old).Stores c [] := by
    refine ⟨h.isOpen, ⟨_, hfs.removed hold⟩, ?_, h.maxRecords, h.maxBytes⟩
    rw [hfs.records_removed hold, h.records_eq, Keyed.erase, ReflOrd.compare_self]
  exact ⟨hremoved.compactIfDue, cache_compactIfDue _⟩

/-- Rounds of a deletion and a put leave one record, and do to the cache what they say. -/
theorem Stores.putAgain {id : String} {record : Bytes} (hfits : Encodable id record)
    (hroom : checkLimits c.maxRecords c.maxBytes 1 record.size = .ok ()) {s : Session LogStore}
    (h : s.store.Stores c [(id, record)]) (rounds : Nat) :
    (s.afterEvents (putAgain id record rounds)).store.Stores c [(id, record)] ∧
      (s.afterEvents (putAgain id record rounds)).store.cache =
        s.store.cache.callAll (Cache.churn id record rounds) := by
  induction rounds generalizing s with
  | zero => exact ⟨h, rfl⟩
  | succ rounds ih =>
    obtain ⟨hempty, hremove⟩ := h.delete
    obtain ⟨hagain, hinsert⟩ := hempty.put hfits hroom
    obtain ⟨hstores, hcache⟩ := ih (s := (s.afterEvent (.call (.delete id))).afterEvent
      (.call (.put id record))) hagain
    refine ⟨hstores, hcache.trans ?_⟩
    change Cache.callAll ((s.store.delete id).2.put id record).2.cache _ = _
    rw [hinsert, hremove]
    rfl

/-- Whatever the calls are, a cache holds no more records than its capacity, each of them queued,
and the queue is too long by no more than the records that came back. Whatever is done with a store,
its cache is one that such calls make. And a record that is deleted and put again is queued once
more every time, although the store never holds another. -/
theorem cache_governed (c : StoreConfig) :
    (∀ calls, Cache.Governed c.cacheSize (Cache.callAll { capacity := c.cacheSize } calls)
      (Cache.returnsAfterAll { capacity := c.cacheSize } 0 calls)) ∧
    (∀ file events, Cache.Follows { capacity := c.cacheSize }
      ((Session.mk (open_ c file) []).afterEvents events).store.cache) ∧
    ∀ id record rounds, c.cacheSize ≠ 0 → Encodable id record →
      checkLimits c.maxRecords c.maxBytes 1 record.size = .ok () →
      let s := ((Session.mk (open_ c .empty) []).afterEvents
        (.call (.put id record) :: putAgain id record rounds)).store
      s.records = [(id, record)] ∧ s.cache.queue = List.replicate (rounds + 1) id := by
  refine ⟨Cache.governed_callAll c.cacheSize, fun file events => ?_, ?_⟩
  · exact (Session.mk (open_ c file) []).follows_afterEvents events
  · intro id record rounds hcache hfits hroom
    obtain ⟨hput, hinsert⟩ := (stores_open c).put hfits hroom
    obtain ⟨hstores, hchurn⟩ := Stores.putAgain hfits hroom
      (s := (Session.mk (open_ c .empty) []).afterEvent (.call (.put id record))) hput rounds
    change _ = ((open_ c .empty).put id record).2.cache.callAll _ at hchurn
    have hbounded := (Cache.bounded_empty (c := { capacity := c.cacheSize }) rfl rfl 0).insert
      id record
    obtain ⟨hqueue, hsettled⟩ := Cache.queue_insert_empty hcache id record
    refine ⟨hstores.records_eq, ?_⟩
    change ((Session.afterEvent _ _).afterEvents
      (DocBase.putAgain id record rounds)).store.cache.queue = _
    rw [hchurn, hinsert]
    exact (hbounded.queue_churn hsettled record rounds).1.trans (by rw [hqueue]; rfl)

/-- Five deletions of the one record leave more entries than twice the capacity of two. -/
theorem cache_governed_of_one_record :
    let s := ((Session.mk (open_ { cacheSize := 2 } .empty) []).afterEvents
      (.call (.put "a" (ByteArray.empty.push 1)) ::
        putAgain "a" (ByteArray.empty.push 1) 5)).store
    s.cache.records.length ≤ 2 ∧ s.records = [("a", ByteArray.empty.push 1)] ∧
      s.cache.queue.length = 6 := by
  intro s
  obtain ⟨hgoverned, hfollows, hrounds⟩ := cache_governed { cacheSize := 2 }
  obtain ⟨hrecords, hqueue⟩ := hrounds "a" (ByteArray.empty.push 1) 5 (by decide)
    ⟨by decide, by decide⟩ rfl
  obtain ⟨calls, hcache⟩ := hfollows .empty
    (.call (.put "a" (ByteArray.empty.push 1)) :: putAgain "a" (ByteArray.empty.push 1) 5)
  refine ⟨?_, hrecords, ?_⟩
  · have hle := (hgoverned calls).records_le
    rwa [← hcache] at hle
  · exact (congrArg List.length hqueue).trans List.length_replicate

end LogStore
end DocBase
