import DocBase.Database.Shelf
import DocBase.Proofs.Collection.Twins
import DocBase.Proofs.Store.Backend

/-! Shelves side by side: over one disk, with collections that differ in nothing but what they
have counted and cached. The open logs on a shelf lie apart, each where its path leads. So an
operation on one collection leaves all others as they are. -/
namespace DocBase
open Keyed Disk

namespace Shelf

variable {a b : Shelf} {c d : Collection Backend} {h : Handle} {e : Disk}
  {path path' : String} {file file' : FileId}

theorem on_of_none {α : Type} (hget : a.get? h = none)
    (f : Collection Backend → α × Collection Backend) : a.on h f = ((f nowhere).1, a) := by
  rw [on, hget]

theorem on_of_some {α : Type} (hget : a.get? h = some c)
    (f : Collection Backend → α × Collection Backend) {r : α} {d : Collection Backend}
    (hf : f { c with store := c.store.load a.disk } = (r, d)) :
    a.on h f = (r, {
      disk := (d.store.flush a.disk).2
      opened := a.opened.setIfInBounds h { d with store := (d.store.flush a.disk).1 } }) := by
  rw [on, hget]
  simp only [hf]

/-- The handle in whose place another collection is put has that one, and the others keep
theirs. -/
theorem get?_put (hget : a.get? h = some c) (h' : Handle) :
    Shelf.get? { disk := e, opened := a.opened.setIfInBounds h d } h' =
      if h' = h then some d else a.get? h' := by
  obtain ⟨hbound, -⟩ := Array.getElem?_eq_some_iff.mp hget
  rw [get?, Array.getElem?_setIfInBounds]
  by_cases heq : h' = h
  · rw [if_pos heq.symm, if_pos heq, if_pos (heq ▸ hbound)]
  · rw [if_neg (Ne.symm heq), if_neg heq]
    rfl

theorem set_self (hget : a.get? h = some c) :
    { disk := a.disk, opened := a.opened.setIfInBounds h c } = a := by
  have hopened : a.opened.setIfInBounds h c = a.opened := by
    apply Array.ext_getElem?
    intro h'
    have hput := get?_put (e := a.disk) (d := c) hget h'
    rw [get?] at hput
    rw [hput]
    split
    next heq => rw [heq, ← hget, get?]
    next => rfl
  rw [hopened]

/-- On the shelf that a collection was added to, it has the first number that was free. -/
theorem get?_add (a : Shelf) (c : Collection Backend) (h : Handle) :
    (a.add c).2.get? h = if h = a.opened.size then some c else a.get? h := by
  rw [get?, Shelf.add, Array.getElem?_push]
  rfl

/-! ## Open logs -/

/-- The collection behind a handle has a log open. -/
def HasOpen (a : Shelf) (h : Handle) (path : String) (file : FileId) : Prop :=
  ∃ c s, a.get? h = some c ∧ c.store = .log path file s ∧ s.isOpen = true

/-- A collection that was closed has no log open any more. -/
theorem not_hasOpen_close (a : Shelf) (h : Handle) (path : String) (file : FileId) :
    ¬ HasOpen (a.on h Collection.close).2 h path file := by
  rintro ⟨c₁, s, hc₁, hstore, hs⟩
  cases hget : a.get? h with
  | none =>
    rw [on_of_none hget, hget] at hc₁
    cases hc₁
  | some c =>
    cases hrun : Collection.close { c with store := c.store.load a.disk } with
    | mk r d =>
      have hclosed := Collection.store_close { c with store := c.store.load a.disk }
      rw [hrun] at hclosed
      rw [on_of_some hget _ hrun, get?_put hget, if_pos rfl] at hc₁
      cases hc₁
      obtain ⟨file', hd⟩ := Backend.eq_of_flush hstore
      dsimp only at hclosed
      rw [hd] at hclosed
      rw [Backend.isOpen_of_close hclosed.symm] at hs
      cases hs

theorem HasOpen.of_add (ho : HasOpen (a.add c).2 h path file) :
    a.HasOpen h path file ∨
      h = a.opened.size ∧ ∃ s, c.store = .log path file s ∧ s.isOpen = true := by
  obtain ⟨c₁, s, hc₁, hstore, hs⟩ := ho
  rw [get?_add] at hc₁
  split at hc₁
  next heq =>
    cases hc₁
    exact .inr ⟨heq, s, hstore, hs⟩
  next => exact .inl ⟨c₁, s, hc₁, hstore, hs⟩

/-- The collection with its files as they are on the disk. -/
def loaded (e : Disk) (c : Collection Backend) : Collection Backend :=
  { c with store := c.store.load e }

/-- Shelves over one disk, on which the same collections are alike, and the open logs lie apart,
each where its path leads. -/
structure Alike (a b : Shelf) : Prop where
  disk : b.disk = a.disk
  size : b.opened.size = a.opened.size
  sound : a.disk.Sound
  twins {h : Handle} {c : Collection Backend} (hc : a.get? h = some c) : ∃ d,
    b.get? h = some d ∧ Collection.Twins Backend.Paired (loaded a.disk c) (loaded a.disk d)
  linked {h : Handle} {path : String} {file : FileId} (ho : a.HasOpen h path file) :
    a.disk.linked path = some file
  apart {h h' : Handle} {path path' : String} {file file' : FileId} (ho : a.HasOpen h path file)
    (ho' : a.HasOpen h' path' file') (hne : h ≠ h') : key (wayOf path) ≠ key (wayOf path')

namespace Alike

theorem get?_none (hab : Alike a b) (hget : a.get? h = none) : b.get? h = none := by
  rw [get?, Array.getElem?_eq_none_iff] at hget ⊢
  rwa [hab.size]

omit b in
/-- A collection on a shelf that is as it should be is its own twin. -/
theorem twins_self (hab : Alike a a) (hget : a.get? h = some c) :
    Collection.Twins Backend.Paired (loaded a.disk c) (loaded a.disk c) := by
  obtain ⟨d, hget', htwins⟩ := hab.twins hget
  rw [hget] at hget'
  cases hget'
  exact htwins

omit b in
/-- What has its place in an open log has it open. -/
theorem open_of_place (hget : a.get? h = some c) {obstacle : Option StoreError}
    (hplace : (loaded a.disk c).store.place = .log path file obstacle true) :
    a.HasOpen h path file ∧ (obstacle = none → ∃ way, a.disk.locate path = .ok way) := by
  obtain ⟨⟨s, hstore, hs⟩, hreplace⟩ := Backend.cases_of_place_load hplace
  exact ⟨⟨c, s, hget, hstore, hs⟩, fun hnone => exists_locate_of_canReplace (hreplace hnone)⟩

/-- On another disk that spares its log a collection is what it was. -/
theorem twins_of_spares (hab : Alike a b) (hget : a.get? h = some c)
    (hspares : ∀ path file, a.HasOpen h path file → Spares (key (wayOf path)) a.disk e) :
    ∃ d, b.get? h = some d ∧ Collection.Twins Backend.Paired (loaded e c) (loaded e d) := by
  obtain ⟨d, hget', htwins⟩ := hab.twins hget
  refine ⟨d, hget', htwins.withStore ?_⟩
  refine htwins.store.load fun path file s hstore hs => ?_
  have ho : a.HasOpen h path file := ⟨c, s, hget, hstore, hs⟩
  exact (hspares path file ho).bytes (hab.linked ho)

/-- From one handle a collection is taken and put back, and all others stay. -/
theorem put (hab : Alike a b) (hget : a.get? h = some c) (c' d' : Collection Backend)
    (he : e.Sound) (htwins : Collection.Twins Backend.Paired (loaded e c') (loaded e d'))
    (hspares : ∀ k, (∀ path file, a.HasOpen h path file → k ≠ key (wayOf path)) →
      Spares k a.disk e)
    (hopen : ∀ path file s, c'.store = .log path file s → s.isOpen = true →
      e.linked path = some file ∧ ∃ file', a.HasOpen h path file') :
    Alike { disk := e, opened := a.opened.setIfInBounds h c' }
        { disk := e, opened := b.opened.setIfInBounds h d' } ∧
      ∀ h' path file, HasOpen { disk := e, opened := a.opened.setIfInBounds h c' } h' path file →
        ∃ file', a.HasOpen h' path file' := by
  obtain ⟨d, hget', -⟩ := hab.twins hget
  have hbefore : ∀ h' path file,
      HasOpen { disk := e, opened := a.opened.setIfInBounds h c' } h' path file →
        e.linked path = some file ∧ ∃ file', a.HasOpen h' path file' := by
    rintro h' path file ⟨c₁, s, hc₁, hstore, hs⟩
    rw [get?_put hget] at hc₁
    split at hc₁
    next heq =>
      cases hc₁
      rw [heq]
      exact hopen path file s hstore hs
    next hne =>
      have ho : a.HasOpen h' path file := ⟨c₁, s, hc₁, hstore, hs⟩
      refine ⟨?_, file, ho⟩
      have hlink := (hspares (key (wayOf path)) fun path' file' ho' =>
        hab.apart ho ho' hne).link
      exact hlink.trans (hab.linked ho)
  refine ⟨⟨rfl, ?_, he, fun {h' c₁} hc₁ => ?_, fun ho => (hbefore _ _ _ ho).1, fun ho ho' hne => ?_⟩,
    fun h' path file ho => (hbefore h' path file ho).2⟩
  · rw [Array.size_setIfInBounds, Array.size_setIfInBounds, hab.size]
  · rw [get?_put hget] at hc₁
    rw [get?_put hget']
    split at hc₁
    next heq =>
      cases hc₁
      rw [if_pos heq]
      exact ⟨d', rfl, htwins⟩
    next hne =>
      rw [if_neg hne]
      refine hab.twins_of_spares hc₁ fun path file ho => ?_
      exact hspares _ fun path' file' ho' => hab.apart ho ho' hne
  · obtain ⟨-, _, hbefore₁⟩ := hbefore _ _ _ ho
    obtain ⟨-, _, hbefore₂⟩ := hbefore _ _ _ ho'
    exact hab.apart hbefore₁ hbefore₂ hne

/-- An operation that no alike collections are told apart by has the same outcome on both shelves.
No other logs are open afterwards than before. -/
theorem on {α : Type} (hab : Alike a b) {f : CollectionAction Backend α} {Q : α → α → Prop}
    (hf : ∀ p, Relates (Collection.Twins (Backend.Alike p)) f f Q) (h : Handle) :
    SameOutcome Q (a.on h f).1 (b.on h f).1 ∧ Alike (a.on h f).2 (b.on h f).2 ∧
      ∀ h' path file, HasOpen (a.on h f).2 h' path file → ∃ file', a.HasOpen h' path file' := by
  cases hget : a.get? h with
  | none =>
    have hnowhere : Collection.Twins (Backend.Alike .memory) nowhere nowhere :=
      ⟨.memory ⟨_, rfl⟩, rfl, fun _ hs => nomatch hs⟩
    rw [on_of_none hget, on_of_none (hab.get?_none hget)]
    exact ⟨(hf _ _ _ hnowhere).1, hab, fun _ _ file ho => ⟨file, ho⟩⟩
  | some c =>
    obtain ⟨d, hget', htwins⟩ := hab.twins hget
    obtain ⟨hout, hafter⟩ := hf (loaded a.disk c).store.place (loaded a.disk c) (loaded a.disk d)
      (htwins.withStore htwins.store)
    cases hrun : f (loaded a.disk c) with
    | mk r c₁ =>
      cases hrun' : f (loaded a.disk d) with
      | mk r' d₁ =>
        rw [hrun, hrun'] at hout hafter
        have hrunb : f (loaded b.disk d) = (r', d₁) := by rw [hab.disk, hrun']
        obtain ⟨b₁, b₂, e, hflush, hflush', he, hpaired, hspares, hopen⟩ :=
          hafter.store.flush hab.sound fun path file obstacle hplace => by
            obtain ⟨ho, hlocate⟩ := open_of_place hget hplace
            exact ⟨hab.linked ho, hlocate⟩
        have hput := hab.put hget { c₁ with store := b₁ } { d₁ with store := b₂ } he
          (hafter.withStore hpaired)
          (fun k hk => hspares k fun path file obstacle hplace =>
            hk path file (open_of_place hget hplace).1)
          (fun path file s hstore hs => by
            obtain ⟨hlinked, file', obstacle, hplace⟩ := hopen path file s hstore hs
            exact ⟨hlinked, file', (open_of_place hget hplace).1⟩)
        rw [on_of_some hget f hrun, on_of_some hget' f hrunb, hab.disk, hflush, hflush']
        exact ⟨hout, hput⟩

/-- The disk may change wherever no open log lies. -/
theorem withDisk (hab : Alike a b) (he : e.Sound)
    (hspares : ∀ h path file, a.HasOpen h path file → Spares (key (wayOf path)) a.disk e) :
    Alike { a with disk := e } { b with disk := e } where
  disk := rfl
  size := hab.size
  sound := he
  twins hc := hab.twins_of_spares hc fun path file ho => hspares _ path file ho
  linked {h path file} ho := (hspares h path file ho).link.trans (hab.linked ho)
  apart ho ho' hne := hab.apart ho ho' hne

/-- A collection comes up on both shelves, with a log of its own if it has one. -/
theorem add (hab : Alike a b) (htwins : Collection.Twins Backend.Paired (loaded a.disk c)
      (loaded a.disk d))
    (hopen : ∀ path file s, c.store = .log path file s → s.isOpen = true →
      a.disk.linked path = some file ∧
        ∀ h path' file', a.HasOpen h path' file' → key (wayOf path') ≠ key (wayOf path)) :
    Alike (a.add c).2 (b.add d).2 := by
  refine ⟨hab.disk, ?_, hab.sound, fun {h c₁} hc₁ => ?_, fun ho => ?_, fun ho ho' hne => ?_⟩
  · rw [Shelf.add, Shelf.add, Array.size_push, Array.size_push, hab.size]
  · rw [get?_add] at hc₁
    rw [get?_add, hab.size]
    split at hc₁
    next heq =>
      cases hc₁
      exact ⟨d, if_pos heq, htwins⟩
    next hne =>
      rw [if_neg hne]
      exact hab.twins hc₁
  · rcases ho.of_add with ho | ⟨-, s, hstore, hs⟩
    · exact hab.linked ho
    · exact (hopen _ _ s hstore hs).1
  · rcases ho.of_add with ho | ⟨heq, s, hstore, hs⟩ <;>
      rcases ho'.of_add with ho' | ⟨heq', s', hstore', hs'⟩
    · exact hab.apart ho ho' hne
    · exact (hopen _ _ s' hstore' hs').2 _ _ _ ho
    · exact ((hopen _ _ s hstore hs).2 _ _ _ ho').symm
    · exact absurd (heq.trans heq'.symm) hne

/-- Reading from a collection changes nothing that could be told. -/
theorem on_silent {α : Type} (hab : Alike a b) {f : CollectionAction Backend α}
    (hf : ∀ p, Silent (Collection.Twins (Backend.Alike p)) f) (h : Handle) :
    Alike (a.on h f).2 b ∧
      ∀ h' path file, HasOpen (a.on h f).2 h' path file → ∃ file', a.HasOpen h' path file' := by
  cases hget : a.get? h with
  | none =>
    rw [on_of_none hget]
    exact ⟨hab, fun _ _ file ho => ⟨file, ho⟩⟩
  | some c =>
    obtain ⟨d, hget', htwins⟩ := hab.twins hget
    have hafter := hf (loaded a.disk c).store.place (loaded a.disk c) (loaded a.disk d)
      (htwins.withStore htwins.store)
    cases hrun : f (loaded a.disk c) with
    | mk r c₁ =>
      rw [hrun] at hafter
      obtain ⟨b₁, hflush, hpaired, hopen⟩ := hafter.store.flush_read
      have hput := hab.put hget { c₁ with store := b₁ } d hab.sound
        (hafter.withStore hpaired) (fun k _ => .refl k a.disk)
        (fun path file s hstore hs => by
          obtain ⟨obstacle, hplace⟩ := hopen path file s hstore hs
          have ho := (open_of_place hget hplace).1
          exact ⟨hab.linked ho, file, ho⟩)
      rw [← hab.disk, set_self hget', hab.disk] at hput
      rw [on_of_some hget f hrun, hflush]
      exact hput

end Alike
end Shelf
end DocBase
