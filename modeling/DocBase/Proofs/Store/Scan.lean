import DocBase.Proofs.Store.Stored

/-! Scans while the store changes. A cursor goes through the identifiers that were there when the
scan was begun, and finds at each what is stored by then, whatever the other cursors do. -/
namespace DocBase
open Keyed

/-! ## Histories -/

/-- The cursor that an event asks for its next record. -/
def LogEvent.cursor? : LogEvent → Option Nat
  | call (.next i) => some i
  | _ => none

/-- Changes of what is stored, and what the one cursor itself is asked. -/
def LogEvent.concerns (i : Nat) : LogEvent → Bool
  | call (.put _ _) | call (.delete _) | call .close => true
  | call (.next j) => j == i
  | _ => false

/-- A cursor was asked for its next record: what was stored then, and what it answered. -/
structure Pull where
  now : Option (Keyed String Bytes)
  answer : StoreAnswer

namespace Session

def after (s : Session Backend) : LogEvent → Session Backend
  | .call c => (s.call c).2
  | .compact => { s with store := s.store.compact }

def run (s : Session Backend) (events : List LogEvent) : Session Backend := events.foldl after s

/-- How a cursor was asked, event by event. -/
def pulls (i : Nat) (s : Session Backend) : List LogEvent → List Pull
  | [] => []
  | e :: events =>
    if e.cursor? = some i then
      ⟨s.store.stored, (s.call (.next i)).1⟩ :: (s.after e).pulls i events
    else (s.after e).pulls i events

end Session

/-! ## Going through identifiers -/

/-- One pull of a cursor: the identifiers that were still to come, and those that are then. -/
inductive Reached : Pull → List String → List String → Prop
  /-- Those without a record by then are passed over. -/
  | found {records : Keyed String Bytes} {skipped rest : List String} {id : String} {record : Bytes}
      (hskipped : ∀ x ∈ skipped, records.get? x = none) (hfound : records.get? id = some record) :
      Reached ⟨some records, .entry (some (.ok (id, record)))⟩ (skipped ++ id :: rest) rest
  | exhausted {records : Keyed String Bytes} {skipped : List String}
      (hskipped : ∀ x ∈ skipped, records.get? x = none) :
      Reached ⟨some records, .entry none⟩ skipped []
  | refused {id : String} {rest : List String} :
      Reached ⟨none, .entry (some (.error .closed))⟩ (id :: rest) []
  | ended : Reached ⟨none, .entry none⟩ [] []

/-- All pulls of a cursor in turn. -/
inductive Visited : List String → List Pull → List String → Prop
  | nil {ids : List String} : Visited ids [] ids
  | cons {p : Pull} {ps : List Pull} {ids mid left : List String} (h : Reached p ids mid)
      (hrest : Visited mid ps left) : Visited ids (p :: ps) left

namespace Pull

/-- The identifier that was reached. -/
def id? (p : Pull) : Option String :=
  match p.answer with
  | .entry (some (.ok (id, _))) => some id
  | _ => none

end Pull

namespace Reached
variable {p : Pull} {ids mid : List String}

theorem skip {records : Keyed String Bytes} {answer : StoreAnswer} {id : String}
    (hid : records.get? id = none) (h : Reached ⟨some records, answer⟩ ids mid) :
    Reached ⟨some records, answer⟩ (id :: ids) mid := by
  have hcons : ∀ skipped : List String, (∀ x ∈ skipped, records.get? x = none) →
      ∀ x ∈ id :: skipped, records.get? x = none := by
    intro skipped hskipped x hx
    rcases List.mem_cons.mp hx with rfl | hx
    · exact hid
    · exact hskipped x hx
  cases h with
  | @found _ skipped rest _ record hskipped hfound =>
    exact .found (hcons skipped hskipped) hfound
  | exhausted hskipped => exact .exhausted (hcons ids hskipped)

/-- What was reached comes before all that is left. -/
theorem sublist (h : Reached p ids mid) : (p.id?.toList ++ mid).Sublist ids := by
  cases h with
  | found => exact List.sublist_append_right _ _
  | exhausted => exact List.nil_sublist _
  | refused => exact List.nil_sublist _
  | ended => exact List.nil_sublist _

theorem of_nil (h : Reached p [] mid) : p.answer = .entry none ∧ mid = [] := by
  generalize hids : ([] : List String) = ids at h
  cases h with
  | found => simp at hids
  | exhausted => exact ⟨rfl, hids⟩
  | refused => cases hids
  | ended => exact ⟨rfl, hids⟩

theorem of_id?_none (h : Reached p ids mid) (hid : p.id? = none) : mid = [] := by
  cases h with
  | found => simp [Pull.id?] at hid
  | exhausted => rfl
  | refused => rfl
  | ended => rfl

theorem of_closed (h : Reached p ids mid) (hnow : p.now = none) :
    p.answer = .entry (if ids = [] then none else some (.error .closed)) ∧ mid = [] := by
  cases h with
  | found => cases hnow
  | exhausted => cases hnow
  | refused => exact ⟨by simp, rfl⟩
  | ended => exact ⟨by simp, rfl⟩

end Reached

namespace Visited
variable {p : Pull} {ps qs : List Pull} {ids mid left : List String}

theorem exists_of_append (h : Visited ids (ps ++ qs) left) :
    ∃ mid, Visited ids ps mid ∧ Visited mid qs left := by
  induction ps generalizing ids with
  | nil => exact ⟨ids, .nil, h⟩
  | cons p ps ih =>
    cases h with
    | cons hreached hrest =>
      obtain ⟨mid, hps, hqs⟩ := ih hrest
      exact ⟨mid, .cons hreached hps, hqs⟩

theorem sublist (h : Visited ids ps left) : (ps.filterMap Pull.id? ++ left).Sublist ids := by
  induction h with
  | nil => exact List.Sublist.refl _
  | @cons p ps ids mid left hreached _ ih =>
    have hstep : (p.id?.toList ++ (ps.filterMap Pull.id? ++ left)).Sublist ids :=
      (List.Sublist.append_left ih _).trans hreached.sublist
    cases hid : p.id? with
    | none => simpa [List.filterMap_cons, hid] using hstep
    | some id => simpa [List.filterMap_cons, hid] using hstep

theorem of_nil (h : Visited [] ps left) : ∀ p ∈ ps, p.answer = .entry none := by
  generalize hids : ([] : List String) = ids at h
  induction h with
  | nil => exact fun p hp => nomatch hp
  | cons hreached _ ih =>
    subst hids
    obtain ⟨hanswer, hmid⟩ := hreached.of_nil
    intro p hp
    rcases List.mem_cons.mp hp with rfl | hp
    · exact hanswer
    · exact ih hmid.symm p hp

/-- A cursor that reached nothing is over. -/
theorem nothing_after (h : Visited ids (p :: ps) left) (hid : p.id? = none) :
    ∀ q ∈ ps, q.answer = .entry none := by
  cases h with
  | cons hreached hrest =>
    rw [hreached.of_id?_none hid] at hrest
    exact hrest.of_nil

/-- The pulls of a closed store. -/
theorem of_closed (h : Visited ids ps left) (hnow : ∀ p ∈ ps, p.now = none) :
    (∀ p ∈ ps.head?, p.answer = .entry (if ids = [] then none else some (.error .closed))) ∧
      ∀ p ∈ ps.tail, p.answer = .entry none := by
  cases h with
  | nil => exact ⟨fun p hp => (nomatch hp), fun p hp => (nomatch hp)⟩
  | @cons p ps _ mid _ hreached hrest =>
    obtain ⟨hanswer, rfl⟩ := hreached.of_closed (hnow p List.mem_cons_self)
    refine ⟨?_, hrest.of_nil⟩
    rintro _ ⟨⟩
    exact hanswer

theorem stored (h : Visited ids ps left) : ∀ p ∈ ps, ∀ id record,
    p.answer = .entry (some (.ok (id, record))) →
      ∃ records, p.now = some records ∧ records.get? id = some record := by
  induction h with
  | nil => exact fun p hp => nomatch hp
  | cons hreached _ ih =>
    intro p hp id record hanswer
    rcases List.mem_cons.mp hp with rfl | hp
    · cases hreached with
      | found hskipped hfound =>
        cases hanswer
        exact ⟨_, rfl, hfound⟩
      | exhausted => cases hanswer
      | refused => cases hanswer
      | ended => cases hanswer
    · exact ih p hp id record hanswer

end Visited

/-! ## The cursors of a store -/

namespace Backend
variable {b : Backend}

theorem Steady.nextOf (h : b.Steady) (ids : List String) : ∃ answer mid b',
    ScanCursor.nextOf ids b = (answer, ⟨mid⟩, b') ∧ Reached ⟨b.stored, .entry answer⟩ ids mid ∧
      b'.Steady ∧ b'.stored = b.stored := by
  induction ids generalizing b with
  | nil =>
    refine ⟨none, [], b, rfl, ?_, h, rfl⟩
    cases b.stored with
    | none => exact .ended
    | some records => exact .exhausted fun x hx => nomatch hx
  | cons id rest ih =>
    obtain ⟨b₁, hget, hsteady, hstored⟩ := h.get id
    rw [ScanCursor.nextOf, hget]
    cases hnow : b.stored with
    | none => exact ⟨_, _, b₁, rfl, .refused, hsteady, hstored.trans hnow⟩
    | some records =>
      rw [hnow] at hstored
      cases hid : records.get? id with
      | some record =>
        refine ⟨some (.ok (id, record)), rest, b₁, ?_, ?_, hsteady, hstored⟩
        · simp [found, hid]
        · exact @Reached.found records [] rest id record (fun x hx => nomatch hx) hid
      | none =>
        obtain ⟨answer, mid, b', hnext, hreached, hsteady', hstored'⟩ := ih hsteady
        rw [hstored] at hreached hstored'
        refine ⟨answer, mid, b', ?_, hreached.skip hid, hsteady', hstored'⟩
        simp [found, hid, hnext]

end Backend

namespace Session
variable {s : Session Backend} {i : Nat} {ids : List String}

theorem next_eq (h : s.store.Steady) (hcursor : s.cursors[i]? = some ⟨ids⟩) : ∃ answer mid b',
    s.call (.next i) = (.entry answer, ⟨b', s.cursors.set i ⟨mid⟩⟩) ∧
      Reached ⟨s.store.stored, .entry answer⟩ ids mid ∧ b'.Steady ∧
      b'.stored = s.store.stored := by
  obtain ⟨answer, mid, b', hnext, hreached, hsteady, hstored⟩ := h.nextOf ids
  refine ⟨answer, mid, b', ?_, hreached, hsteady, hstored⟩
  rw [call, next, hcursor]
  simp only [ScanCursor.next, hnext]

theorem follows_after (h : s.store.Steady) (e : LogEvent) :
    Backend.Follows s.store (s.after e).store := by
  have hsame : ∀ {b' : Backend}, b'.Steady → b'.stored = s.store.stored →
      Backend.Follows s.store b' := fun hsteady hstored => ⟨hsteady, fun hnow => hstored.trans hnow⟩
  cases e with
  | compact => exact h.compact
  | call c =>
    cases c with
    | get id =>
      obtain ⟨b', hget, hsteady, hstored⟩ := h.get id
      simp only [after, call, hget]
      exact hsame hsteady hstored
    | put id record => exact h.put id record
    | delete id => exact h.delete id
    | scan range =>
      obtain ⟨b', hscan, hsteady, hstored⟩ := h.scan range
      simp only [after, call, Session.scan, hscan]
      cases Backend.listed s.store.stored range with
      | ok ids => exact hsame hsteady hstored
      | error e => exact hsame hsteady hstored
    | next j =>
      cases hcursor : s.cursors[j]? with
      | none =>
        simp only [after, call, next, hcursor]
        exact h.refl
      | some c =>
        obtain ⟨answer, mid, b', hnext, -, hsteady, hstored⟩ := next_eq h hcursor
        simp only [after, hnext]
        exact hsame hsteady hstored
    | close => exact ⟨h.close.1, fun _ => h.close.2⟩
    | size => exact h.refl
    | isEmpty => exact h.refl
    | stats => exact h.refl
    | isClosed => exact h.refl

/-- A cursor stays where it is until it is asked itself. -/
theorem cursor_after (h : s.store.Steady) (hcursor : s.cursors[i]? = some ⟨ids⟩) {e : LogEvent}
    (he : e.cursor? ≠ some i) : (s.after e).cursors[i]? = some ⟨ids⟩ := by
  cases e with
  | compact => exact hcursor
  | call c =>
    cases c with
    | scan range =>
      obtain ⟨b', hscan, -, -⟩ := h.scan range
      simp only [after, call, Session.scan, hscan]
      cases Backend.listed s.store.stored range with
      | ok found =>
        have hi := (List.getElem?_eq_some_iff.mp hcursor).1
        exact (List.getElem?_append_left hi).trans hcursor
      | error e => exact hcursor
    | next j =>
      have hij : j ≠ i := fun hij => he (congrArg some hij)
      cases hj : s.cursors[j]? with
      | none =>
        simp only [after, call, next, hj]
        exact hcursor
      | some c =>
        obtain ⟨answer, mid, b', hnext, -⟩ := next_eq h hj
        simp only [after, hnext]
        rw [List.getElem?_set_ne hij]
        exact hcursor
    | get id => exact hcursor
    | put id record => exact hcursor
    | delete id => exact hcursor
    | close => exact hcursor
    | size => exact hcursor
    | isEmpty => exact hcursor
    | stats => exact hcursor
    | isClosed => exact hcursor

theorem eq_next_of_cursor? {e : LogEvent} (he : e.cursor? = some i) : e = .call (.next i) := by
  cases e with
  | compact => cases he
  | call c =>
    cases c <;> cases he
    rfl

theorem visited_pulls (h : s.store.Steady) (hcursor : s.cursors[i]? = some ⟨ids⟩)
    (events : List LogEvent) :
    ∃ left, Visited ids (s.pulls i events) left ∧ (s.run events).cursors[i]? = some ⟨left⟩ := by
  induction events generalizing s ids with
  | nil => exact ⟨ids, .nil, hcursor⟩
  | cons e events ih =>
    have hafter := (follows_after h e).steady
    rw [pulls]
    by_cases he : e.cursor? = some i
    · rw [if_pos he]
      obtain ⟨answer, mid, b', hnext, hreached, -⟩ := next_eq h hcursor
      have hi := (List.getElem?_eq_some_iff.mp hcursor).1
      have hmid : (s.after e).cursors[i]? = some ⟨mid⟩ := by
        rw [eq_next_of_cursor? he, after, hnext]
        exact List.getElem?_set_self hi
      obtain ⟨left, hvisited, hleft⟩ := ih hafter hmid
      rw [hnext]
      exact ⟨left, .cons hreached hvisited, hleft⟩
    · rw [if_neg he]
      exact ih hafter (cursor_after h hcursor he)

theorem pulls_append (i : Nat) (s : Session Backend) (early late : List LogEvent) :
    s.pulls i (early ++ late) = s.pulls i early ++ (s.run early).pulls i late := by
  induction early generalizing s with
  | nil => rfl
  | cons e early ih =>
    rw [List.cons_append, pulls, pulls, ih]
    split <;> rfl

theorem steady_run (h : s.store.Steady) (events : List LogEvent) :
    (s.run events).store.Steady := by
  induction events generalizing s with
  | nil => exact h
  | cons e events ih => exact ih (follows_after h e).steady

theorem now_of_closed (h : s.store.Steady) (hclosed : s.store.stored = none)
    (events : List LogEvent) : ∀ p ∈ s.pulls i events, p.now = none := by
  induction events generalizing s with
  | nil => exact fun p hp => nomatch hp
  | cons e events ih =>
    have hafter := follows_after h e
    have hrest := ih hafter.steady (hafter.closed hclosed)
    rw [pulls]
    split
    · intro p hp
      rcases List.mem_cons.mp hp with rfl | hp
      · exact hclosed
      · exact hrest p hp
    · exact hrest

end Session

/-! ## Cursors side by side -/

namespace Backend
variable {b c : Backend}

theorem Matched.nextOf (h : Matched b c) (ids : List String) :
    Matched (ScanCursor.nextOf ids b).2.2 c := by
  induction ids generalizing b with
  | nil => exact h
  | cons id rest ih =>
    have hget := h.get id
    rw [ScanCursor.nextOf]
    split
    next heq =>
      rw [heq] at hget
      exact hget
    next heq =>
      rw [heq] at hget
      exact ih hget
    next heq =>
      rw [heq] at hget
      exact hget

/-- Only what is stored decides how far a cursor goes. -/
theorem nextOf_congr (hb : b.Steady) (hc : c.Steady) (h : b.stored = c.stored)
    (ids : List String) :
    (ScanCursor.nextOf ids b).1 = (ScanCursor.nextOf ids c).1 ∧
      (ScanCursor.nextOf ids b).2.1 = (ScanCursor.nextOf ids c).2.1 := by
  induction ids generalizing b c with
  | nil => exact ⟨rfl, rfl⟩
  | cons id rest ih =>
    obtain ⟨b', hget, hsteady, hstored⟩ := hb.get id
    obtain ⟨c', hget', hsteady', hstored'⟩ := hc.get id
    rw [ScanCursor.nextOf, ScanCursor.nextOf, hget, hget', h]
    cases found c.stored id with
    | error e => exact ⟨rfl, rfl⟩
    | ok record =>
      cases record with
      | some record => exact ⟨rfl, rfl⟩
      | none => exact ih hsteady hsteady' (by rw [hstored, hstored', h])

end Backend

namespace Session
variable {s t : Session Backend} {i : Nat}

theorem store_scan (s : Session Backend) (range : ScanRange) :
    (s.after (.call (.scan range))).store = (RecordStore.scan range s.store).2 := by
  simp only [after, call, scan]
  split <;> simp_all

theorem store_next (s : Session Backend) (j : Nat) :
    ∃ ids, (s.after (.call (.next j))).store = (ScanCursor.nextOf ids s.store).2.2 := by
  simp only [after, call, next]
  cases s.cursors[j]? with
  | none => exact ⟨[], rfl⟩
  | some c => exact ⟨c.pending, rfl⟩

/-- The stores hold the same, and the one cursor has the same still to come. -/
structure Beside (i : Nat) (s t : Session Backend) : Prop where
  steady : s.store.Steady
  steady' : t.store.Steady
  matched : s.store.Matched t.store
  cursor : ∃ ids, s.cursors[i]? = some ⟨ids⟩ ∧ t.cursors[i]? = some ⟨ids⟩

theorem Beside.matched_left (h : Beside i s t) {e : LogEvent} (he : ¬ e.concerns i) :
    (s.after e).store.Matched t.store := by
  cases e with
  | compact => exact h.matched.compact
  | call c =>
    cases c with
    | get id => exact h.matched.get id
    | scan range =>
      rw [store_scan]
      exact h.matched.scan range
    | next j =>
      obtain ⟨ids, hstore⟩ := store_next s j
      rw [hstore]
      exact h.matched.nextOf ids
    | put id record => exact absurd rfl he
    | delete id => exact absurd rfl he
    | close => exact absurd rfl he
    | size => exact h.matched
    | isEmpty => exact h.matched
    | stats => exact h.matched
    | isClosed => exact h.matched

theorem cursor?_of_not_concerns {e : LogEvent} (he : ¬ e.concerns i) : e.cursor? ≠ some i := by
  intro hcursor
  rw [eq_next_of_cursor? hcursor] at he
  simp [LogEvent.concerns] at he

theorem Beside.left (h : Beside i s t) {e : LogEvent} (he : ¬ e.concerns i) :
    Beside i (s.after e) t := by
  obtain ⟨ids, hs, ht⟩ := h.cursor
  have hcursor := cursor?_of_not_concerns he
  exact ⟨(follows_after h.steady e).steady, h.steady', h.matched_left he, ids,
    cursor_after h.steady hs hcursor, ht⟩

theorem Beside.next (h : Beside i s t) :
    (s.call (.next i)).1 = (t.call (.next i)).1 ∧
      Beside i (s.after (.call (.next i))) (t.after (.call (.next i))) := by
  obtain ⟨ids, hs, ht⟩ := h.cursor
  obtain ⟨hanswer, hmid⟩ := Backend.nextOf_congr h.steady h.steady' h.matched.stored_eq ids
  obtain ⟨answer, mid, b', hnext, -, hsteady, -⟩ := h.steady.nextOf ids
  obtain ⟨answer', mid', c', hnext', -, hsteady', -⟩ := h.steady'.nextOf ids
  have hmatched := (((h.matched.nextOf ids).symm.nextOf ids).symm)
  rw [hnext, hnext'] at hanswer hmid hmatched
  cases hanswer
  cases hmid
  simp only [after, call, Session.next, hs, ht, ScanCursor.next, hnext, hnext']
  refine ⟨trivial, hsteady, hsteady', hmatched, mid, ?_, ?_⟩
  · exact List.getElem?_set_self (List.getElem?_eq_some_iff.mp hs).1
  · exact List.getElem?_set_self (List.getElem?_eq_some_iff.mp ht).1

theorem Beside.both (h : Beside i s t) {e : LogEvent} (he : e.concerns i)
    (hown : e.cursor? ≠ some i) : Beside i (s.after e) (t.after e) := by
  obtain ⟨ids, hs, ht⟩ := h.cursor
  refine ⟨(follows_after h.steady e).steady, (follows_after h.steady' e).steady, ?_, ids,
    cursor_after h.steady hs hown, cursor_after h.steady' ht hown⟩
  cases e with
  | compact => cases he
  | call c =>
    cases c with
    | put id record => exact h.matched.put id record
    | delete id => exact h.matched.delete id
    | close => exact h.matched.close
    | next j => exact absurd (congrArg some (by simpa [LogEvent.concerns] using he)) hown
    | _ => cases he

theorem Beside.pulls_filter (h : Beside i s t) (events : List LogEvent) :
    t.pulls i (events.filter (·.concerns i)) = s.pulls i events := by
  induction events generalizing s t with
  | nil => rfl
  | cons e events ih =>
    rw [pulls]
    by_cases he : e.concerns i
    · rw [List.filter_cons_of_pos he, pulls]
      by_cases hown : e.cursor? = some i
      · obtain ⟨hanswer, hafter⟩ := h.next
        rw [if_pos hown, if_pos hown, h.matched.stored_eq, hanswer]
        obtain rfl := eq_next_of_cursor? hown
        rw [ih hafter]
      · rw [if_neg hown, if_neg hown, ih (h.both he hown)]
    · rw [List.filter_cons_of_neg he, if_neg (cursor?_of_not_concerns he), ih (h.left he)]

/-- What a cursor makes of the identifiers that its scan was begun with, whatever happens. -/
structure Faithful (ids : List String) (i : Nat) (s : Session Backend) (events : List LogEvent) :
    Prop where
  visited : ∃ left, Visited ids (s.pulls i events) left
  ascending : ((s.pulls i events).filterMap Pull.id?).Pairwise fun a b => compare a b = .lt
  snapshot : ∀ id ∈ (s.pulls i events).filterMap Pull.id?, id ∈ ids
  current : ∀ p ∈ s.pulls i events, ∀ id record, p.answer = .entry (some (.ok (id, record))) →
    ∃ records, p.now = some records ∧ records.get? id = some record
  nothing_after : ∀ ps p qs, s.pulls i events = ps ++ p :: qs → p.id? = none →
    ∀ q ∈ qs, q.answer = .entry none
  /-- A closed store is told of once, if identifiers are still to come. -/
  closed : ∀ early late, events = early ++ .call .close :: late →
    ∃ pending, Visited ids (s.pulls i early) pending ∧ ∃ rest,
      s.pulls i events = s.pulls i early ++ rest ∧
      (∀ p ∈ rest.head?,
        p.answer = .entry (if pending = [] then none else some (.error .closed))) ∧
      ∀ p ∈ rest.tail, p.answer = .entry none
  /-- What other cursors are asked, and what else is read, makes no difference. -/
  alone : s.pulls i (events.filter (·.concerns i)) = s.pulls i events

theorem faithful (h : s.store.Steady) {ids : List String} (hcursor : s.cursors[i]? = some ⟨ids⟩)
    (hids : ids.Pairwise fun a b => compare a b = .lt) (events : List LogEvent) :
    Faithful ids i s events := by
  obtain ⟨left, hvisited, -⟩ := visited_pulls h hcursor events
  have hsublist : ((s.pulls i events).filterMap Pull.id?).Sublist ids :=
    (List.sublist_append_left _ left).trans hvisited.sublist
  constructor
  · exact ⟨left, hvisited⟩
  · exact hids.sublist hsublist
  · exact fun id hid => hsublist.subset hid
  · exact hvisited.stored
  · intro ps p qs hsplit hid
    rw [hsplit] at hvisited
    obtain ⟨mid, -, hrest⟩ := hvisited.exists_of_append
    exact hrest.nothing_after hid
  · intro early late hsplit
    obtain ⟨pending, hearly, hpending⟩ := visited_pulls h hcursor early
    have hsteady := steady_run h early
    have hclose : (((s.run early).after (.call .close)).store).Steady ∧
        ((s.run early).after (.call .close)).store.stored = none := hsteady.close
    have hstill : ((s.run early).after (.call .close)).cursors[i]? = some ⟨pending⟩ := hpending
    obtain ⟨_, hlate, -⟩ := visited_pulls hclose.1 hstill late
    refine ⟨pending, hearly, _, ?_, hlate.of_closed (now_of_closed hclose.1 hclose.2 late)⟩
    rw [hsplit, pulls_append, pulls, if_neg nofun]
  · have hbeside : Beside i s s := ⟨h, h, h.matched, ids, hcursor, hcursor⟩
    exact hbeside.pulls_filter events

end Session

/-- A scan of a store of either kind, after any history and whatever follows: the identifiers of
the range that are there, ascending, and for each the record that is stored when it is reached. -/
theorem scan_visits_snapshot {driver : StoreDriver} {location : String} {c : StoreConfig}
    {d d' : Disk} {b : Backend} (hopen : driver.openStore location c d = (.ok b, d'))
    (before : List LogEvent) (range : ScanRange) :
    let s := (Session.mk b []).run before
    let begun := s.call (.scan range)
    (s.store.stored = none →
      begun.1 = .scanned (.error .closed) ∧ begun.2.cursors = s.cursors) ∧
    ∀ records, s.store.stored = some records →
      let ids := records.keys.filter range.contains
      begun.1 = .scanned (.ok ids) ∧
        ∀ events, Session.Faithful ids s.cursors.length begun.2 events := by
  intro s begun
  have hsteady : s.store.Steady :=
    Session.steady_run (s := Session.mk b []) (Backend.steady_openStore hopen) before
  obtain ⟨b', hscan, hsteady', -⟩ := hsteady.scan range
  refine ⟨fun hclosed => ?_, fun records hstored => ?_⟩
  · have hbegun : begun = (.scanned (.error .closed), { s with store := b' }) := by
      simp only [begun, Session.call, Session.scan, hscan, hclosed, Backend.listed]
    rw [hbegun]
    exact ⟨rfl, rfl⟩
  · intro ids
    have hbegun : begun = (.scanned (.ok ids), ⟨b', s.cursors ++ [⟨ids⟩]⟩) := by
      simp only [begun, Session.call, Session.scan, hscan, hstored, Backend.listed, ids]
    have hids : ids.Pairwise fun a b => compare a b = .lt :=
      (pairwise_keys (hsteady.ascending hstored)).sublist List.filter_sublist
    rw [hbegun]
    exact ⟨rfl, Session.faithful hsteady' List.getElem?_concat_length hids⟩

/-- Three records, and then a scan of two of them that others come between. -/
def threePuts : List LogEvent :=
  [.call (.put "b" .empty), .call (.put "a" .empty), .call (.put "c" .empty)]

def scanOfTwo : StoreAnswer × Session Backend :=
  ((Session.mk (.memory (MemoryStore.open_ {})) []).run threePuts).call
    (.scan (.between (.included "a") (.excluded "c")))

def comeBetween : List LogEvent :=
  [.call (.put "aa" .empty), .call (.next 0), .call (.delete "b"), .call (.scan .all),
    .call (.next 1), .call .close, .call (.next 0), .call (.next 1), .call (.next 0)]

theorem scan_visits_snapshot_of_two :
    StoreDriver.memory.openStore "" {} {} = (.ok (.memory (MemoryStore.open_ {})), {}) ∧
      ((Session.mk (.memory (MemoryStore.open_ {})) []).run threePuts).store.stored =
        some [("a", .empty), ("b", .empty), ("c", .empty)] ∧
      scanOfTwo.1 = .scanned (.ok ["a", "b"]) ∧
      Session.Faithful ["a", "b"] 0 scanOfTwo.2 comeBetween ∧
      (scanOfTwo.2.pulls 0 comeBetween).map Pull.answer =
        [.entry (some (.ok ("a", .empty))), .entry (some (.error .closed)), .entry none] := by
  have hopen : StoreDriver.memory.openStore "" {} {} =
      (.ok (.memory (MemoryStore.open_ {})), {}) := rfl
  have hstored : ((Session.mk (.memory (MemoryStore.open_ {})) []).run threePuts).store.stored =
      some [("a", .empty), ("b", .empty), ("c", .empty)] := rfl
  obtain ⟨-, hbegun⟩ := scan_visits_snapshot hopen threePuts
    (.between (.included "a") (.excluded "c"))
  obtain ⟨hscanned, hfaithful⟩ := hbegun _ hstored
  exact ⟨hopen, hstored, hscanned, hfaithful comeBetween, rfl⟩

end DocBase
