import Minirel.CreateFailures
import Minirel.JoinTypes

namespace Minirel
open ByteMemory SlotDirectory Page Heap

namespace Db

variable {db db' : Db} {name other : Name} {b : Pool}

-- The other files are as they were.
def Elsewhere (name : Name) (db db' : Db) : Prop := ∀ other, other ≠ name → db'.files other = db.files other

-- And the one is not made.
structure Only (name : Name) (db db' : Db) : Prop where
  elsewhere : Elsewhere name db db'
  missing : db.files name = none → db'.files name = none

theorem Only.refl (name : Name) (db : Db) : Only name db db := ⟨fun _ _ => rfl,id⟩

theorem elsewhere_setPool (db : Db) (name : Name) (b : Pool) :
    Elsewhere name db (db.setPool name b) := fun _ apart => setPool_other b apart

theorem only_setPool (there : db.files name ≠ none) (b : Pool) : Only name db (db.setPool name b) :=
  ⟨elsewhere_setPool db name b,fun missing => absurd missing there⟩

theorem Only.setPool (only : Only name db db') (there : db'.files name ≠ none) (b : Pool) :
    Only name db (db'.setPool name b) :=
  ⟨fun other apart => (setPool_other b apart).trans (only.elsewhere other apart),fun missing =>
    absurd (only.missing missing) there⟩

theorem pool_there (db : Db) (name : Name) : Ends (fun _ => db.files name ≠ none) (db.pool name) := by
  rw [pool]
  split
  · rename_i b found
    exact .ok (by rw [found]; exact Option.some_ne_none _)
  · exact .throw _

theorem openFile_only (db : Db) (name : Name) : Only name db (db.openFile name).2 := by
  unfold openFile
  split
  · exact .refl name db
  · split
    · exact .refl name db
    · rename_i b found
      exact only_setPool (by rw [found]; exact Option.some_ne_none _) _

theorem newHeapFileScan_only (db : Db) (name : Name) :
    Ends (fun r => Only name db r.2.2) (db.newHeapFileScan name) := by
  have opened := openFile_only db name
  rw [newHeapFileScan]
  split
  · rename_i db1 same
    rw [same] at opened
    exact (pool_there db1 name).bind fun b there => (Ends.any _).bind fun r _ => .ok (opened.setPool there _)
  · rename_i status db1 _ same
    rw [same] at opened
    exact .ok opened

theorem newInsertFileScan_only (db : Db) (name : Name) :
    Ends (fun r => Only name db r.2.2) (db.newInsertFileScan name) := by
  have opened := openFile_only db name
  rw [newInsertFileScan]
  split
  · rename_i db1 same
    rw [same] at opened
    exact (pool_there db1 name).bind fun b there => (Ends.any _).bind fun r _ => .ok (opened.setPool there _)
  · rename_i status db1 _ same
    rw [same] at opened
    split
    · exact .ok opened
    · exact .throw _

theorem scanNext_only (db : Db) (name : Name) (s : HeapFileScan) :
    Ends (fun r => Only name db r.2.2) (db.scanNext name s) := by
  rw [scanNext]
  exact (pool_there db name).bind fun b there => (Ends.any _).bind fun r _ => .ok (only_setPool there _)

theorem deleteRecord_only (db : Db) (name : Name) (s : HeapFileScan) :
    Ends (fun r => Only name db r.2.2) (db.deleteRecord name s) := by
  rw [deleteRecord]
  exact (pool_there db name).bind fun b there => (Ends.any _).bind fun r _ => .ok (only_setPool there _)

theorem endScan_only (db : Db) (name : Name) (s : HeapFileScan) :
    Ends (fun r => Only name db r.2.2) (db.endScan name s) := by
  rw [endScan]
  exact (pool_there db name).bind fun b there => .ok (only_setPool there _)

theorem insertRecord_only (db : Db) (name : Name) (s : InsertFileScan) (rec : Record) :
    Ends (fun r => Only name db r.2.2) (db.insertRecord name s rec) := by
  rw [insertRecord]
  exact (pool_there db name).bind fun b there => (Ends.any _).bind fun r _ => .ok (only_setPool there _)

theorem deleteHeapFileScan_only (db : Db) (name : Name) (s : HeapFileScan) :
    Ends (Only name db) (db.deleteHeapFileScan name s) := by
  rw [deleteHeapFileScan]
  exact (pool_there db name).bind fun b there => .ok (only_setPool there _)

theorem deleteInsertFileScan_only (db : Db) (name : Name) (s : InsertFileScan) :
    Ends (Only name db) (db.deleteInsertFileScan name s) := by
  rw [deleteInsertFileScan]
  exact (pool_there db name).bind fun b there => .ok (only_setPool there _)

theorem createHeapFile_elsewhere (db : Db) (name : Name) :
    Ends (fun r => Elsewhere name db r.2) (db.createHeapFile name) := by
  rw [← createHeapFileOn_working]
  have outcome := createHeapFileOn_spec db .working name
  generalize db.createHeapFileOn .working name = result at outcome
  cases outcome with
  | refused => exact .ok fun _ _ => rfl
  | opened => exact .ok (elsewhere_setPool db name _)
  | made => exact .ok (elsewhere_setPool db name _)

theorem destroyHeapFile_only (db : Db) (name : Name) : Only name db (db.destroyHeapFile name).2 := by
  unfold destroyHeapFile destroyFile
  split
  · exact .refl name db
  · split
    · exact .refl name db
    · split
      · exact .refl name db
      · exact ⟨fun other apart => Function.update_of_ne apart ..,fun _ => Function.update_self ..⟩

theorem Elsewhere.length (elsewhere : Elsewhere name db db') (apart : other ≠ name) :
    db'.length other = db.length other := by
  rw [Db.length,Db.length,elsewhere other apart]

section shelves

variable {base : Db} {shelf shelf' shelf'' : Shelf} {s : HeapFileScan}

-- The heap files of a shelf have the pages they had, and no file has been made.
structure Alike (db : Db) (shelf : Shelf) (base : Db) : Prop where
  lengths : ∀ name, shelf name ≠ none → db.length name = base.length name
  absent : ∀ name, base.files name = none → db.files name = none

structure Shelved (db : Db) (shelf : Shelf) (base : Db) : Prop where
  stands : db.Stands shelf
  alike : db.Alike shelf base

theorem Stands.shelved (stands : db.Stands shelf) : db.Shelved shelf db := ⟨stands,fun _ _ => rfl,fun _ => id⟩

-- The same heap files with the same records, whoever uses them.
def SameRecords (shelf shelf' : Shelf) : Prop :=
  ∀ name, (shelf' name).map (fun file => records file.heap) = (shelf name).map fun file => records file.heap

theorem SameRecords.refl (shelf : Shelf) : SameRecords shelf shelf := fun _ => rfl

theorem SameRecords.trans (one : SameRecords shelf shelf') (two : SameRecords shelf' shelf'') :
    SameRecords shelf shelf'' :=
  fun name => (two name).trans (one name)

theorem SameRecords.off (same : SameRecords shelf shelf') (name : Name) : shelf' name = none ↔ shelf name = none := by
  rw [← Option.map_eq_none_iff,same name,Option.map_eq_none_iff]

theorem SameRecords.find {file : HeldFile} (same : SameRecords shelf shelf') (present : shelf name = some file) :
    ∃ file', shelf' name = some file' ∧ records file'.heap = records file.heap := by
  have listed := same name
  rw [present,Option.map_some] at listed
  exact Option.map_eq_some_iff.mp listed

theorem SameRecords.put {file file' : HeldFile} (present : shelf name = some file)
    (same : records file'.heap = records file.heap) :
    SameRecords shelf (Function.update shelf name (some file')) := by
  intro other
  by_cases here : other = name
  · subst here
    rw [Function.update_self,present,Option.map_some,Option.map_some,same]
  · rw [Function.update_of_ne here]

def Stays (db : Db) (shelf : Shelf) (base : Db) : Prop := ∃ shelf', SameRecords shelf shelf' ∧ db.Shelved shelf' base

theorem Shelved.stays (shelved : db.Shelved shelf base) : db.Stays shelf base := ⟨shelf,.refl shelf,shelved⟩

theorem Stays.from (stays : db.Stays shelf' base) (same : SameRecords shelf shelf') : db.Stays shelf base := by
  obtain ⟨shelf1,same1,shelved⟩ := stays
  exact ⟨shelf1,same.trans same1,shelved⟩

theorem Stays.length (stays : db.Stays shelf base) (on : shelf name ≠ none) : db.length name = base.length name := by
  obtain ⟨shelf',same,shelved⟩ := stays
  exact shelved.alike.lengths name (mt (same.off name).mp on)

-- What happens to a file that is not on the shelf does not matter to it.
theorem Stands.elsewhere (stands : db.Stands shelf) (off : shelf name = none) (elsewhere : Elsewhere name db db') :
    db'.Stands shelf := by
  intro other file there
  have apart : other ≠ name := by
    rintro rfl
    rw [off] at there
    cases there
  obtain ⟨named,owned,b,found,rest⟩ := stands other file there
  exact ⟨named,owned,b,(elsewhere other apart).trans found,rest⟩

theorem Shelved.only (shelved : db.Shelved shelf base) (off : shelf name = none) (only : Only name db db') :
    db'.Shelved shelf base := by
  refine ⟨shelved.stands.elsewhere off only.elsewhere,fun other there => ?_,fun other missing => ?_⟩
  · have apart : other ≠ name := by
      rintro rfl
      exact there off
    rw [only.elsewhere.length apart]
    exact shelved.alike.lengths other there
  · by_cases here : other = name
    · exact here ▸ only.missing (here ▸ shelved.alike.absent other missing)
    · rw [only.elsewhere other here]
      exact shelved.alike.absent other missing

theorem Stays.only (stays : db.Stays shelf base) (off : shelf name = none) (only : Only name db db') :
    db'.Stays shelf base := by
  obtain ⟨shelf1,same,shelved⟩ := stays
  exact ⟨shelf1,same,shelved.only ((same.off name).mpr off) only⟩

-- A scan that is open on any file of the directory; when it has gone, the shelf is as it was.
inductive ScanOf (db : Db) (shelf : Shelf) (base : Db) (name : Name) (s : HeapFileScan) : Prop where
  | elsewhere (off : shelf name = none) (shelved : db.Shelved shelf base)
  | onShelf (file : HeldFile) (c : Cursor) (present : shelf name = some file) (scans : db.Scans shelf name file s c)
      (whole : c.heap = file.heap) (alike : db.Alike shelf base)

-- A file that is used keeps its pages.
theorem Alike.keep {b' : Pool} {k k' : Pool.Books} (alike : db.Alike shelf base) (there : db = db.setPool name b)
    (kept : b.Keeps k)
    (kept' : b'.Keeps k') (view : b'.view = b.view) : (db.setPool name b').Alike shelf base := by
  constructor
  · intro other on
    rw [← alike.lengths other on]
    by_cases here : other = name
    · subst here
      have before : db.length other = b.file.length := by
        rw [there]
        exact length_setPool db other b
      rw [before,length_setPool]
      exact kept.length_of_view kept' view
    · exact (elsewhere_setPool db name b').length here
  · intro other missing
    have before := alike.absent other missing
    have apart : other ≠ name := by
      rintro rfl
      rw [there,setPool_same] at before
      cases before
    rw [setPool_other b' apart]
    exact before

-- While other objects are used that leave the shelf as it is, the scan can be left alone.
theorem ScanOf.park (reads : db.ScanOf shelf base name s) :
    ∃ shelf', SameRecords shelf shelf' ∧ db.Shelved shelf' base ∧ ∀ db' : Db, db'.Shelved shelf' base →
      db'.ScanOf shelf base name s := by
  cases reads with
  | elsewhere off shelved => exact ⟨shelf,.refl shelf,shelved,fun db' shelved' => .elsewhere off shelved'⟩
  | onShelf file c present scans whole alike =>
    have listed : SameRecords shelf (Function.update shelf name (some (scanned file s c))) :=
      .put present (congrArg records whole)
    have there : ∀ other, Function.update shelf name (some (scanned file s c)) other ≠ none ↔ shelf other ≠ none :=
      fun other => not_congr (listed.off other)
    refine ⟨_,listed,⟨scans.stands,fun other on => alike.lengths other ((there other).mp on),alike.absent⟩,
      fun db' shelved' => ?_⟩
    exact .onShelf file c present ⟨shelved'.stands,scans.there,scans.named,scans.owned⟩ whole
      ⟨fun other on => shelved'.alike.lengths other ((there other).mpr on),shelved'.alike.absent⟩

theorem ScanOf.stays (reads : db.ScanOf shelf base name s) : db.Stays shelf base := by
  obtain ⟨shelf',same,shelved,_⟩ := reads.park
  exact ⟨shelf',same,shelved⟩

theorem ScanOf.only {target : Name} (reads : db.ScanOf shelf base name s) (off : shelf target = none)
    (only : Only target db db') :
    db'.ScanOf shelf base name s := by
  obtain ⟨shelf',same,shelved,resume⟩ := reads.park
  exact resume db' (shelved.only ((same.off target).mpr off) only)

theorem ScanOf.startScan (reads : db.ScanOf shelf base name s) (offset length : Int) (type : Option Datatype)
    (filter : Option (List UInt8))
    (op : Operator) : db.ScanOf shelf base name (s.startScan offset length type filter op).2 := by
  rw [HeapFileScan.startScan_keeps]
  cases reads with
  | elsewhere off shelved => exact .elsewhere off shelved
  | onShelf file c present scans whole alike => exact .onShelf file c present (scans.filtered _) whole alike

theorem Shelved.newHeapFileScan (shelved : db.Shelved shelf base) (name : Name) :
    Ends (fun r => (r.1 = .ok → r.2.2.ScanOf shelf base name r.2.1) ∧ (r.1 ≠ .ok → r.2.2.Shelved shelf base))
      (db.newHeapFileScan name) := by
  cases present : shelf name with
  | none =>
    intro r ended
    have after := shelved.only present (newHeapFileScan_only db name r ended)
    exact ⟨fun _ => .elsewhere present after,fun _ => after⟩
  | some file =>
    have holds := shelved.stands name file present
    obtain ⟨old,found,kept,_⟩ := holds.2.2
    obtain ⟨b,s,c,made,scanning,whole,_,_,view⟩ := newHeapFileScan_view holds found
    have held : db.Stands (Function.update shelf name (some file)) := by
      rw [← present,Function.update_eq_self]
      exact shelved.stands
    rw [made]
    refine .ok ⟨fun _ => ?_,fun failed => absurd rfl failed⟩
    exact .onShelf file c present (held.scans holds.1 holds.2.1 scanning) whole
      (shelved.alike.keep (setPool_self found).symm kept scanning.kept view)

theorem ScanOf.scanNext (reads : db.ScanOf shelf base name s) :
    Ends (fun r => r.2.2.ScanOf shelf base name r.2.1) (db.scanNext name s) := by
  cases reads with
  | elsewhere off shelved => exact fun r ended => .elsewhere off (shelved.only off (scanNext_only db name s r ended))
  | onShelf file c present scans whole alike =>
    obtain ⟨b,back,scanning⟩ := scans.resume
    have owned : file.books.opened.Owned := scans.owned
    obtain ⟨b1,s1,c1,moves,finds⟩ := HeapFileScan.scanNext_spec owned scanning
    have moved : (db.setPool name b1).ScanOf shelf base name s1 :=
      .onShelf file c1 present (scans.stands.scans scans.named scans.owned moves.scanning) (moves.heap.trans whole)
        (alike.keep back scanning.kept moves.scanning.kept moves.view)
    generalize found : HeapFileScan.scanNext b s = outcome at finds
    rw [back]
    cases finds with
    | eof passed done =>
      rw [scanNext_at found]
      exact .ok moved
    | record skipped bytes remaining passed accepted current =>
      rw [scanNext_at found]
      exact .ok moved

theorem ScanOf.delete (reads : db.ScanOf shelf base name s) :
    Ends (fun db' => db'.Shelved shelf base) (db.deleteHeapFileScan name s) := by
  cases reads with
  | elsewhere off shelved => exact fun db' ended => shelved.only off (deleteHeapFileScan_only db name s db' ended)
  | onShelf file c present scans whole alike =>
    obtain ⟨b,back,scanning⟩ := scans.resume
    obtain ⟨b',deleted,kept,view⟩ := db.delete_spec name scans.owned scanning
    have held := scans.stands.put file (holds_setPool scans.named scans.owned kept
      (by rw [view,← whole]; exact scanning.stored))
    rw [Function.update_idem,← present,Function.update_eq_self] at held
    rw [back,deleted]
    exact .ok ⟨held,alike.keep back scanning.kept kept view⟩

-- endScan, which is followed by the delete unless it fails.
theorem ScanOf.endScan (reads : db.ScanOf shelf base name s) :
    Ends (fun r => (r.1 ≠ .ok → r.2.2.Shelved shelf base) ∧
      Ends (fun db' => db'.Shelved shelf base) (r.2.2.deleteHeapFileScan name r.2.1)) (db.endScan name s) := by
  cases reads with
  | elsewhere off shelved =>
    intro r ended
    have after := shelved.only off (endScan_only db name s r ended)
    exact ⟨fun _ => after,fun db' deleted => after.only off (deleteHeapFileScan_only r.2.2 name r.2.1 db' deleted)⟩
  | onShelf file c present scans whole alike =>
    obtain ⟨b,back,scanning⟩ := scans.resume
    obtain ⟨s1,b1,b2,ended,deleted,kept,view⟩ := db.end_spec name scans.owned scanning
    have held := scans.stands.put file (holds_setPool scans.named scans.owned kept
      (by rw [view,← whole]; exact scanning.stored))
    rw [Function.update_idem,← present,Function.update_eq_self] at held
    rw [back,ended]
    refine .ok ⟨fun failed => absurd rfl failed,?_⟩
    rw [deleted]
    exact .ok ⟨held,alike.keep back scanning.kept kept view⟩

end shelves
end Db
end Minirel
