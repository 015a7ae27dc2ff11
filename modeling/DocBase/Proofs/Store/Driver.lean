import DocBase.Proofs.Store.Disk
import DocBase.Store.Driver

/-! What stores with a log do to the disk. Opening, removing and writing back a log touch the
files of its own path and of the compaction beside it, and no other. -/
namespace DocBase
open Keyed Disk

variable {d : Disk} {path : String} {k : String}

namespace StoreDriver

theorem openLog_spec (hd : d.Sound) (path : String) (c : StoreConfig) :
    (openLog path c d).2.Sound ∧
      (∀ k, k ≠ key (wayOf path) → Spares k d (openLog path c d).2) ∧
      ∀ b, (openLog path c d).1 = .ok b → ∃ file bytes,
        b = .log path file (LogStore.open_ c bytes) ∧
        (openLog path c d).2.linked path = some file ∧
        (openLog path c d).2.read file = (LogStore.open_ c bytes).file := by
  have hdirectories : SameFiles d (d.makeDirectories (Log.directoryOf path)).2 :=
    sameFiles_makeDirectories _
  rw [openLog]
  cases hmake : d.makeDirectories (Log.directoryOf path) with
  | mk made d₁ =>
    rw [hmake] at hdirectories
    have hsound := hdirectories.sound hd
    cases made with
    | error e => exact ⟨hsound, fun k _ => hdirectories.spares k, fun _ h => nomatch h⟩
    | ok _ =>
      obtain ⟨hopened, hspares, hlinked⟩ := openFile_spec hsound path
      dsimp only
      cases hopen : d₁.openFile path with
      | mk found d₂ =>
        rw [hopen] at hopened hspares hlinked
        cases found with
        | error e =>
          exact ⟨hopened, fun k hk => (hdirectories.spares k).trans (hspares k hk),
            fun _ h => nomatch h⟩
        | ok file =>
          have hfile : d₂.linked path = some file := hlinked file rfl
          refine ⟨hopened.write _ _, fun k hk => ?_, fun b hb => ?_⟩
          · exact ((hdirectories.spares k).trans (hspares k hk)).trans
              (spares_write hopened hfile hk _)
          · cases hb
            exact ⟨file, _, rfl, hfile, read_write (hopened.there hfile) _⟩

theorem removeLog_spec (hd : d.Sound) (path : String) :
    (removeLog path d).2.Sound ∧
      ∀ k, k ≠ key (wayOf path) → k ≠ key (wayOf (Log.compactPathOf path)) →
        Spares k d (removeLog path d).2 := by
  obtain ⟨hremoved, hspares⟩ := remove_spec hd path
  rw [removeLog]
  cases hremove : d.remove path with
  | mk removed d₁ =>
    rw [hremove] at hremoved hspares
    cases removed with
    | error e => exact ⟨hremoved, fun k hk _ => hspares k hk⟩
    | ok _ =>
      obtain ⟨hremoved', hspares'⟩ := remove_spec hremoved (Log.compactPathOf path)
      exact ⟨hremoved', fun k hk hk' => (hspares k hk).trans (hspares' k hk')⟩

end StoreDriver

namespace Backend

/-- What is written back goes to the file that the store has open, or to a new one at the path
of the store. -/
theorem flush_spares (hd : d.Sound) {file : FileId} (hfile : d.linked path = some file)
    (s : LogStore) :
    ((log path file s).flush d).2.Sound ∧
      ∀ k, k ≠ key (wayOf path) → k ≠ key [] → Spares k d ((log path file s).flush d).2 := by
  rw [flush.eq_def]
  dsimp only
  split
  · split
    · exact ⟨hd.write _ _, fun k hk _ => spares_write hd hfile hk _⟩
    next bytes _ =>
      have hwritten := hd.write file bytes
      refine ⟨hwritten.create _ _, fun k hk hroot => ?_⟩
      refine (spares_write hd hfile hk _).trans (spares_create hwritten ?_ _)
      cases hlocate : (d.write file bytes).locate path with
      | error e => exact hroot
      | ok way =>
        rw [Except.toOption, Option.getD_some, locate_eq_wayOf hlocate]
        exact hk
  · exact ⟨hd, fun k _ _ => .refl k d⟩

/-- The path leads to what is written back, so long as it leads anywhere where a log has given
way. -/
theorem flush_linked (hd : d.Sound) {file : FileId} (hfile : d.linked path = some file)
    {s : LogStore} (hplace : s.left.isSome → ∃ way, d.locate path = .ok way) :
    ∃ file' e, (log path file s).flush d = (log path file' s, e) ∧ e.Sound ∧
      e.linked path = some file' ∧ (s.isOpen → e.read file' = s.file) ∧
      ∀ k, k ≠ key (wayOf path) → Spares k d e := by
  rw [flush.eq_def]
  dsimp only
  split
  · split
    · exact ⟨file, _, rfl, hd.write _ _, hfile, fun _ => read_write (hd.there hfile) _,
        fun k hk => spares_write hd hfile hk _⟩
    next bytes hleft =>
      obtain ⟨way, hlocate⟩ := hplace (hleft ▸ rfl)
      have hlocate' : (d.write file bytes).locate path = .ok (wayOf path) := by
        rw [locate_write, hlocate, locate_eq_wayOf hlocate]
      have hwritten := hd.write file bytes
      rw [replace, hlocate']
      refine ⟨_, _, rfl, hwritten.create _ _, get?_insert_same _ _ _,
        fun _ => read_create _ _, fun k hk => ?_⟩
      exact (spares_write hd hfile hk _).trans (spares_create hwritten hk _)
  next hclosed =>
    exact ⟨file, d, rfl, hd, hfile, fun h => absurd h hclosed, fun k _ => .refl k d⟩

end Backend
end DocBase
