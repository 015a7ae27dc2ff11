import DocBase.Proofs.Collection.ReadBack
import DocBase.Proofs.Database.Shelf
import DocBase.Proofs.Server.Hosting

/-! Every response as a line. The values that a server answers with can all be printed, and
their objects have their names in order; so whoever decodes the line has the response again,
unless the value nests too deep to be read. -/
namespace DocBase
open Keyed

/-! ## Schemas on the shelf -/

namespace Shelf

/-- The defaults of all schemas are in order. -/
def Ordered (shelf : Shelf) : Prop :=
  ∀ h c, shelf.get? h = some c → ∀ s, c.schema = some s → s.WellFormed

variable {shelf : Shelf} {c : Collection Backend} {h : Handle}

theorem Ordered.set (hs : shelf.Ordered) (disk : Disk)
    (hc : ∀ s, c.schema = some s → s.WellFormed) :
    Ordered { disk, opened := shelf.opened.setIfInBounds h c } := by
  intro i d hd
  rw [get?, Array.getElem?_setIfInBounds] at hd
  split at hd
  · split at hd
    · cases hd
      exact hc
    · cases hd
  · exact hs i d hd

theorem Ordered.add (hs : shelf.Ordered) (hc : ∀ s, c.schema = some s → s.WellFormed) :
    (shelf.add c).2.Ordered := by
  intro i d hd
  rw [get?, Shelf.add, Array.getElem?_push] at hd
  split at hd
  · cases hd
    exact hc
  · exact hs i d hd

end Shelf

/-! ## What the steps of a database keep -/

namespace Database

/-- The same database, and the same shelf with its schemas in order. -/
def Even (a b : Database × Shelf) : Prop := b = a ∧ a.2.Ordered

theorem relates_lift {α : Type} (r : Except DatabaseError α) :
    Relates Even (liftM r : DatabaseAction α) (liftM r) Eq :=
  Relates.lift (.refl r)

theorem relates_database : Relates Even database database Eq := by
  rintro a _ ⟨rfl, hordered⟩
  exact ⟨rfl, rfl, hordered⟩

theorem relates_setDatabase (db : Database) : Relates Even (setDatabase db) (setDatabase db) Eq := by
  rintro a _ ⟨rfl, hordered⟩
  exact ⟨rfl, rfl, hordered⟩

theorem relates_onDisk {α : Type} (f : Disk → Except DriverError α × Disk) :
    Relates Even (onDisk f) (onDisk f) Eq := by
  rintro a _ ⟨rfl, hordered⟩
  exact ⟨.refl _, rfl, hordered⟩

theorem relates_onCollection {α : Type} (h : Handle) {f : CollectionAction Backend α}
    {Q : α → α → Prop} (hf : Relates (Collection.Twins Eq) f f Q) :
    Relates Even (onCollection h f) (onCollection h f) Q := by
  rintro ⟨db, shelf⟩ _ ⟨rfl, hordered⟩
  rw [onCollection, onShelf]
  cases hget : shelf.get? h with
  | none =>
    have hnowhere : Collection.Twins Eq Shelf.nowhere Shelf.nowhere :=
      ⟨rfl, rfl, fun _ hs => nomatch hs⟩
    simp only [Shelf.on_of_none hget]
    exact ⟨(hf _ _ hnowhere).1.mapError _, rfl, hordered⟩
  | some c =>
    have hloaded : Collection.Twins Eq { c with store := c.store.load shelf.disk }
        { c with store := c.store.load shelf.disk } := ⟨rfl, rfl, hordered h c hget⟩
    obtain ⟨hout, htwins⟩ := hf _ _ hloaded
    cases hrun : f { c with store := c.store.load shelf.disk } with
    | mk r d =>
      rw [hrun] at hout htwins
      simp only [Shelf.on_of_some hget f hrun]
      exact ⟨hout.mapError _, rfl, hordered.set _ htwins.schema⟩

theorem relates_create (name : String) {schema : Option Schema}
    (hschema : ∀ s, schema = some s → s.WellFormed) :
    Relates Even (create name schema) (create name schema) Eq := by
  refine (relates_lift _).bind fun _ _ _ => ?_
  refine relates_database.bind ?_
  rintro db _ rfl
  split
  · exact Relates.throw _
  refine (relates_onDisk _).bind ?_
  rintro store _ rfl
  refine Relates.bind (Q := Eq) ?_ ?_
  · rintro a _ ⟨rfl, hordered⟩
    exact ⟨rfl, rfl, hordered.add hschema⟩
  · rintro handle _ rfl
    exact (relates_setDatabase _).bind fun _ _ _ => Relates.pure rfl

theorem relates_dropCollection (name : String) :
    Relates Even (dropCollection name) (dropCollection name) Eq := by
  refine relates_database.bind ?_
  rintro db _ rfl
  refine (relates_lift _).bind fun _ _ _ => ?_
  refine (relates_lift _).bind fun _ _ _ => ?_
  refine (relates_setDatabase _).bind fun _ _ _ => ?_
  cases db.live.get? name with
  | none => exact (relates_onDisk _).bind fun _ _ _ => Relates.pure rfl
  | some h =>
    refine (relates_onCollection h (Collection.relates_close (.eq Backend))).bind fun _ _ _ => ?_
    exact (relates_onDisk _).bind fun _ _ _ => Relates.pure rfl

theorem relates_closeAll (handles : List Handle) :
    Relates Even (closeAll handles) (closeAll handles) Eq := by
  exact Relates.inTurn (fun h => relates_onCollection h (Collection.relates_close (.eq _))) handles

theorem relates_close : Relates Even close close Eq := by
  refine relates_database.bind ?_
  rintro db _ rfl
  split
  · exact Relates.pure rfl
  · exact (relates_setDatabase _).bind fun _ _ _ => relates_closeAll _

end Database

/-! ## Servers -/

namespace Server

/-- The same server, with the schemas on its shelf in order. -/
def Even (s t : Server) : Prop := t = s ∧ s.shelf.Ordered

theorem relates_placed {s t : Server} {name : String} {α : Type} {x : DatabaseAction α}
    {Q : α → α → Prop} (hx : Relates Database.Even x x Q) :
    Relates (Placed Even s t name) x x Q := by
  rintro ⟨db, shelf⟩ ⟨db', shelf'⟩ ⟨hsame, hordered⟩
  have hshelf : shelf' = shelf := congrArg Server.shelf hsame
  have hdb := congrArg (fun s : Server => s.databases.get? name) hsame
  simp only [place, get?_insert_same, Option.some.injEq] at hdb
  subst hshelf hdb
  obtain ⟨hout, -, hafter⟩ := hx (db', shelf') _ ⟨rfl, hordered⟩
  refine ⟨hout, ?_, hafter⟩
  rw [← place_place t name (db', shelf'), hsame, place_place]

theorem relates_closeDatabase (name : String) :
    Relates Even (closeDatabase name) (closeDatabase name) Eq := by
  rintro _ s ⟨rfl, hordered⟩
  refine ⟨.refl _, rfl, ?_⟩
  rw [closeDatabase]
  split
  · exact hordered
  next db hdb => exact (Database.relates_close (db, s.shelf) _ ⟨rfl, hordered⟩).2.2

theorem relates_openDatabase (c : DatabaseConfig) :
    Relates Even (openDatabase c) (openDatabase c) Eq := by
  refine (relates_ensureRunning fun h => by rw [h.1]).bind fun _ _ _ => ?_
  refine Relates.get.bind ?_
  rintro s _ ⟨rfl, hordered⟩
  split
  · exact Relates.throw _
  refine (Relates.lift (.refl _)).bind ?_
  rintro db _ rfl
  exact Relates.set ⟨rfl, hordered⟩

/-- Whatever happens to a server, its schemas stay in order. -/
theorem hosting_even : Hosting (fun _ : Unit => Eq) (fun _ => True) Even where
  indistinct _ := .eq Backend
  rest h := by rw [h.1]
  idle h _ _ _ := ⟨by rw [h.1], h.2⟩
  working h _ _ hf := relates_placed (Database.relates_onCollection h (hf ()))
  creating h _ _ _ hschema := relates_placed (Database.relates_create _ hschema) _ _ h
  dropping collection := relates_placed (Database.relates_dropCollection collection)
  opening _ := relates_openDatabase _
  closing := relates_closeDatabase

end Server

namespace Connection
open Server

theorem executeLine_eq (stamps : Nat → Stamp) (line : String) (c : Connection) (s : Server) :
    (c.executeLine stamps line s).1 = (c.respond stamps line s).1.encode := by
  rw [executeLine]

theorem respond_encode {r q : Request} (hprintable : r.toJson.Printable)
    (hdepth : r.toJson.depth ≤ Json.depthLimit) (hread : Request.ofJson? r.toJson = some q)
    (stamps : Nat → Stamp) (c : Connection) (s : Server) :
    (c.respond stamps r.encode s).1 = .ofResult (c.dispatch stamps q s).1 := by
  have hdecode : Request.decode r.encode = some q := by
    rw [Request.decode_encode hprintable, if_pos hdepth, hread]
  rw [respond]
  simp only [hdecode]

/-- A response is one line of text, whatever the line was that it responds to and whatever has
happened to the server before. Decoding the line gives the response if it is at most as
deep as the reader goes, and otherwise fails. -/
theorem decode_executeLine {config : ServerConfig} {disk : Disk} {start s : Server}
    (hstart : Server.start config { disk } = .ok start) {events : List Event}
    (hrun : runAll events start = s) (stamps : Nat → Stamp) (line : String) (c : Connection) :
    '\n' ∉ (c.executeLine stamps line s).1.toList ∧
      Response.decode (c.executeLine stamps line s).1 =
        if (c.respond stamps line s).1.toJson.depth ≤ Json.depthLimit
        then .ok (c.respond stamps line s).1 else .error .malformedRequest := by
  have hempty : Shelf.Ordered { disk } := fun h c hget => nomatch hget
  have hbegin := hosting_even.start (fun _ _ => trivial) ⟨rfl, hempty⟩ hstart
  have hadmits : ∀ e ∈ events, e.Admits fun _ => True := fun e _ => e.admits_all fun _ => trivial
  have hnow := hosting_even.runAll hadmits hbegin
  rw [hrun] at hnow
  obtain ⟨-, hsound, -⟩ := hosting_even.respond stamps line c hnow
  rw [executeLine_eq]
  generalize (c.respond stamps line s).1 = response at hsound ⊢
  exact ⟨Response.newline_notMem_encode _, Response.decode_encode hsound⟩

/-- The reply to a patch that was carried out, one level too deep to be read. -/
theorem decode_executeLine_of_deep_patch :
    let config : ServerConfig := { databases := [{ name := "a" }] }
    let start : Server :=
      { config, databases := [("a", { config := { name := "a" }, driver := .memory })] }
    let stamps : Nat → Stamp := fun _ => { now := 0, freshId := "p" }
    let c : Connection := { id := 1 }
    let insertion : Request := ⟨"a", .on "b" (.insert {})⟩
    let patch : Request :=
      ⟨"a", .on "b" (.update "p" (.patch [("c.d.e", Collection.nestedArrays 124)] []))⟩
    let s := runAll [.line stamps c insertion.encode] start
    (∃ value, (c.respond stamps patch.encode s).1 = .ok value) ∧
      Response.decode (c.executeLine stamps patch.encode s).1 = .error .malformedRequest := by
  intro config start stamps c insertion patch s
  have hstart : Server.start config { disk := {} } = .ok start := rfl
  have hprintable : patch.toJson.Printable := by
    refine ⟨trivial, trivial, trivial, trivial, ⟨trivial, ⟨?_, trivial⟩, trivial, trivial⟩, trivial⟩
    exact Value.printable_toJson _
  have hdepth : patch.toJson.depth ≤ Json.depthLimit := by decide +kernel
  have hreply : (Request.ofJson? patch.toJson).bind
      (fun r => (c.dispatch stamps r s).1.toOption.map Json.depth) = some Json.depthLimit := by
    decide +kernel
  obtain ⟨q, hread, hreply⟩ := Option.bind_eq_some_iff.mp hreply
  have hrun : runAll [.line stamps c insertion.encode] start = s := rfl
  clear_value s
  obtain ⟨-, hline⟩ := decode_executeLine hstart hrun stamps patch.encode c
  obtain ⟨value, hresult, hdeep⟩ := exists_of_toOption_map hreply
  have hrespond : (c.respond stamps patch.encode s).1 = .ok value := by
    rw [respond_encode hprintable hdepth hread, hresult]
    rfl
  refine ⟨⟨value, hrespond⟩, ?_⟩
  rw [hline, hrespond, Response.depth_ok, hdeep, if_neg (Nat.not_succ_le_self _)]

end Connection
end DocBase
