import Minirel.CatalogRoom
import Minirel.Dbcreate

namespace Minirel
open ByteMemory SlotDirectory Page Heap Db

-- What main keeps in its globals while it takes statements.
structure CatalogObjects where
  relCat : HeapFile
  attrCat : HeapFile

def openObjects (db : Db) : Except Abort (CatalogObjects × Db) := do
  let (status,relCat,db) ← db.newHeapFile relCatName
  let db ← call (status,db)
  let (status,attrCat,db) ← db.newHeapFile attrCatName
  let db ← call (status,db)
  return (⟨relCat,attrCat⟩,db)

-- The buffer manager that is deleted then has nothing to write that was not unpinned before.
def UT_Quit (o : CatalogObjects) (db : Db) : Except Abort Db := do
  let db ← db.deleteHeapFile relCatName o.relCat
  db.deleteHeapFile attrCatName o.attrCat

-- Only the Unix files outlive a process. In the next one there may be anything else in its memory.
def Db.exited (db : Db) (stale : Name → Int → Page) (raw : HeapFileScan) : Db where
  files := fun name => (db.files name).map fun b => ⟨b.file,fun _ => none,0,stale name,[]⟩
  stale := stale
  raw := raw
  freed := db.freed

-- An object has opened the file and has not used it since, or there is none.
inductive UsedBy : Option HeapFile → Pool.Books → Prop where
  | free (first : Int) : UsedBy none {Pool.Books.unused with first := first}
  | opened (first n : Int) : UsedBy (some (HeapFile.fresh first n)) (inUse {Pool.Books.unused with first := first} n)

variable {db : Db} {shelf : Shelf} {name : Name} {k : Pool.Books} {heap : Heap} {recCnt n : Int} {d : Slots}
  {file : HeldFile} {h : HeapFile}

theorem unused_owned (first : Int) : ({Pool.Books.unused with first := first} : Pool.Books).Owned := fun _ marked =>
    False.elim marked

namespace Db

theorem newHeapFile_lengths (holds : db.Holds name k ((n,d)::heap) recCnt) :
    Ends (fun r => ∀ other, r.2.2.length other = db.length other) (db.newHeapFile name) := by
  obtain ⟨named,owned,b,found,kept,stored⟩ := holds
  obtain ⟨b1,opened,kept1,view1⟩ := kept.openFile
  obtain ⟨m,e,rest,b2,same,constructed,kept2,view2⟩ :=
    HeapFile.construct_spec kept1 (by rw [view1]; exact stored) db.raw.toHeapFile
  have longer : b2.file.length = db.length name := by
    rw [kept.length_of_view kept2 (view2.trans view1),length_found found]
  have made : db.newHeapFile name = .ok (.ok,HeapFile.fresh k.first m,db.setPool name b2) := by
    rw [newHeapFile,openFile_found named found,opened]
    simp only [pool_setPool,setPool_raw,ok_bind,constructed,setPool_setPool]
    rfl
  rw [made]
  exact .ok (lengths_setPool longer)

theorem deleteHeapFile_lengths (owned : k.Owned) (holds : db.Holds name (inUse k n) heap recCnt) :
    Ends (fun db' => ∀ other, db'.length other = db.length other)
      (db.deleteHeapFile name (HeapFile.fresh k.first n)) := by
  obtain ⟨named,_,b,found,kept,stored⟩ := holds
  obtain ⟨kept1,view1⟩ := HeapFile.destroy_pinned (h:=HeapFile.fresh k.first n) owned rfl rfl rfl kept
  rw [deleteHeapFile,pool_found found,ok_bind]
  refine .ok (lengths_setPool ?_)
  rw [kept.length_of_view kept1 view1,length_found found]

theorem Holds.some_page (holds : db.Holds name k heap recCnt) : ∃ n d rest, heap = (n,d)::rest := by
  obtain ⟨_,_,before,n,d,_,split,_⟩ := newInsertFileScan_spec holds
  cases before with
  | nil => exact ⟨n,d,[],split⟩
  | cons first before => exact ⟨first.1,first.2,before ++ [(n,d)],split⟩

-- A process opens a file that no object has opened.
theorem Stands.opens (stands : db.Stands shelf) (present : shelf name = some file) (used : UsedBy none file.books) :
    ∃ h db' file', db.newHeapFile name = .ok (.ok,h,db') ∧ db'.Stands (Function.update shelf name (some file')) ∧
      UsedBy (some h) file'.books ∧
      file'.heap = file.heap ∧ Elsewhere name db db' ∧ ∀ other, db'.length other = db.length other := by
  obtain ⟨books,heap,recCnt⟩ := file
  cases used with
  | free first =>
    have holds := stands name _ present
    obtain ⟨n,d,rest,rfl⟩ := holds.some_page
    obtain ⟨b,made,holds'⟩ := newHeapFile_spec holds
    refine ⟨_,_,⟨inUse {Pool.Books.unused with first := first} n,(n,d)::rest,recCnt⟩,made,stands.put _ holds',
      .opened first n,rfl,
      elsewhere_setPool db name b,newHeapFile_lengths holds _ made⟩

-- And closes it.
theorem Stands.closes (stands : db.Stands shelf) (present : shelf name = some file)
    (used : UsedBy (some h) file.books) :
    ∃ db' file', db.deleteHeapFile name h = .ok db' ∧ db'.Stands (Function.update shelf name (some file')) ∧
      UsedBy none file'.books ∧
      file'.heap = file.heap ∧ Elsewhere name db db' ∧ ∀ other, db'.length other = db.length other := by
  obtain ⟨books,heap,recCnt⟩ := file
  cases used with
  | opened first n =>
    have holds := stands name _ present
    obtain ⟨b,deleted,holds'⟩ := deleteHeapFile_spec (unused_owned first) holds
    exact ⟨_,⟨{Pool.Books.unused with first := first},heap,recCnt⟩,deleted,stands.put _ holds',.free first,
      rfl,elsewhere_setPool db name b,
      deleteHeapFile_lengths (unused_owned first) holds _ deleted⟩

-- A file that no object has opened has nothing in memory that the Unix file has not.
theorem Holds.exited {first : Int} (holds : db.Holds name {Pool.Books.unused with first := first} heap recCnt)
    (stale : Name → Int → Page)
    (raw : HeapFileScan) : (db.exited stale raw).Holds name {Pool.Books.unused with first := first} heap recCnt := by
  obtain ⟨named,owned,b,found,kept,stored⟩ := holds
  have unframed : b.frames = fun _ => none := by
    funext n
    cases at_n : b.frames n with
    | none => rfl
    | some frame =>
      have held := (kept.backed n frame at_n).2.1
      have pins := kept.pinned n
      rw [at_n,Option.elim_some] at pins
      rw [pins] at held
      exact absurd held (Nat.lt_irrefl 0)
  have view : Pool.view ⟨b.file,fun _ => none,0,stale name,[]⟩ = b.view := by
    funext n
    rw [Pool.view,Pool.view,unframed]
  refine ⟨named,owned,⟨b.file,fun _ => none,0,stale name,[]⟩,?_,?_,by rw [view]; exact stored⟩
  · rw [Db.exited]
    dsimp only
    rw [found]
    rfl
  · have settled : ∀ n, 1 ≤ n → ¬ ({Pool.Books.unused with first := first} : Pool.Books).loose n →
        Pool.view ⟨b.file,fun _ => none,0,stale name,[]⟩ n = File.at? b.file n := by
      rw [view]
      exact kept.settled
    exact ⟨fun _ => rfl,fun _ _ there => absurd there.symm (Option.some_ne_none _),settled,kept.first,rfl,
      kept.counted,kept.noFree,rfl⟩

theorem exited_length (stale : Name → Int → Page) (raw : HeapFileScan) (name : Name) :
    (db.exited stale raw).length name = db.length name := by
  rw [length,length,exited]
  dsimp only
  cases db.files name <;> rfl

end Db

-- Taking statements needs the objects no more than that they are there.
theorem openObjects_openCatalogs (db : Db) : (openObjects db).map Prod.snd = openCatalogs db := by
  rw [openObjects,openCatalogs]
  cases db.newHeapFile relCatName with
  | error abort => rfl
  | ok r =>
    obtain ⟨status,relCat,db1⟩ := r
    rw [ok_bind,ok_bind]
    dsimp only
    cases call (status,db1) with
    | error abort => rfl
    | ok db2 =>
      rw [ok_bind,ok_bind]
      cases db2.newHeapFile attrCatName with
      | error abort => rfl
      | ok r =>
        obtain ⟨status,attrCat,db3⟩ := r
        rw [ok_bind,ok_bind]
        dsimp only
        cases call (status,db3) <;> rfl

end Minirel
