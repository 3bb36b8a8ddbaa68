import Minirel.ScanRuns
import Minirel.HeapGains

namespace Minirel
open ByteMemory SlotDirectory Page Heap

-- What whoever still reads curPage of a deleted object finds there. The allocator is not part of the
-- program; a NULL that the destructor has left is expected to be there still.
structure FreedMemory where
  curPage : Ptr → Ptr
  null : curPage none = none

def FreedMemory.untouched : FreedMemory := ⟨id,rfl⟩

-- The Unix files of the database directory, each with the pool its clients see, what the frames of
-- pages to come and the members of objects to come hold before they are set, and what is left of
-- objects that are gone.
structure Db where
  files : Name → Option Pool
  stale : Name → Int → Page
  raw : HeapFileScan
  freed : FreedMemory

namespace Db

def setPool (db : Db) (name : Name) (b : Pool) : Db := {db with files := Function.update db.files name (some b)}

def createFile (db : Db) (name : Name) : Status × Db :=
  if name = [] then (.badFile,db)
  else match db.files name with
    | some _ => (.fileExists,db)
    | none => (.ok,db.setPool name ⟨File.create,fun _ => none,0,db.stale name,[]⟩)

def destroyFile (db : Db) (name : Name) : Status × Db :=
  if name = [] then (.badFile,db)
  else match db.files name with
    | none => (.unixErr,db)
    | some b => if 0 < b.openCnt then (.fileOpen,db) else (.ok,{db with files := Function.update db.files name none})

def openFile (db : Db) (name : Name) : Status × Db :=
  if name = [] then (.badFile,db)
  else match db.files name with
    | none => (.unixErr,db)
    | some b => (b.openFile.1,db.setPool name b.openFile.2)

-- The pool behind the filePtr of an object.
def pool (db : Db) (name : Name) : Except Abort Pool :=
  match db.files name with
  | some b => .ok b
  | none => .error .undefined

-- A file that can be opened already is left open.
def createHeapFile (db : Db) (name : Name) : Except Abort (Status × Db) := do
  match db.openFile name with
  | (.ok,db) => return (.fileExists,db)
  | (_,db) =>
    match db.createFile name with
    | (.ok,db) =>
      match db.openFile name with
      | (.ok,db) =>
        let (status,b) ← (← db.pool name).createHeapFile name
        return (status,db.setPool name b)
      | (status,db) => return (status,db)
    | (status,db) => return (status,db)

def destroyHeapFile (db : Db) (name : Name) : Status × Db := db.destroyFile name

-- The constructors, on the name of the file. Without the file the members keep what they hold.
def newHeapFile (db : Db) (name : Name) : Except Abort (Status × HeapFile × Db) := do
  match db.openFile name with
  | (.ok,db) =>
    let (status,h,b) ← HeapFile.construct (← db.pool name) db.raw.toHeapFile
    return (status,h,db.setPool name b)
  | (status,db) => return (status,db.raw.toHeapFile,db)

def newHeapFileScan (db : Db) (name : Name) : Except Abort (Status × HeapFileScan × Db) := do
  match db.openFile name with
  | (.ok,db) =>
    let (status,s,b) ← HeapFileScan.construct (← db.pool name) db.raw
    return (status,s,db.setPool name b)
  | (status,db) => return (status,{db.raw with filter := none},db)

-- The constructor goes on to compare the page numbers when the file could not be opened; a
-- pointer that nothing has set points nowhere.
def newInsertFileScan (db : Db) (name : Name) : Except Abort (Status × InsertFileScan × Db) := do
  match db.openFile name with
  | (.ok,db) =>
    let (status,s,b) ← InsertFileScan.construct (← db.pool name) ⟨db.raw.toHeapFile⟩
    return (status,s,db.setPool name b)
  | (status,db) =>
    if db.raw.curPage = none then return (status,⟨db.raw.toHeapFile⟩,db)
    else throw .undefined

-- The methods, for an object on the named file.
def getRecordAt (db : Db) (name : Name) (h : HeapFile) (rid : RID) :
    Except Abort (Except Status Record × HeapFile × Db) := do
  let (rec,h,b) ← h.getRecord (← db.pool name) rid
  return (rec,h,db.setPool name b)

def scanNext (db : Db) (name : Name) (s : HeapFileScan) : Except Abort (Except Status RID × HeapFileScan × Db) := do
  let (result,s,b) ← HeapFileScan.scanNext (← db.pool name) s
  return (result,s,db.setPool name b)

def getRecord (db : Db) (name : Name) (s : HeapFileScan) : Except Abort (Except Status Record) := do
  HeapFileScan.getRecord (← db.pool name) s

def deleteRecord (db : Db) (name : Name) (s : HeapFileScan) : Except Abort (Status × HeapFileScan × Db) := do
  let (status,s,b) ← HeapFileScan.deleteRecord (← db.pool name) s
  return (status,s,db.setPool name b)

def endScan (db : Db) (name : Name) (s : HeapFileScan) : Except Abort (Status × HeapFileScan × Db) := do
  let (status,s,b) := s.endScan (← db.pool name)
  return (status,s,db.setPool name b)

def insertRecord (db : Db) (name : Name) (s : InsertFileScan) (rec : Record) :
    Except Abort (Except Status RID × InsertFileScan × Db) := do
  let (result,s,b) ← InsertFileScan.insertRecord (← db.pool name) s rec
  return (result,s,db.setPool name b)

def deleteHeapFile (db : Db) (name : Name) (h : HeapFile) : Except Abort Db := do
  return db.setPool name (h.destroy (← db.pool name))

def deleteHeapFileScan (db : Db) (name : Name) (s : HeapFileScan) : Except Abort Db := do
  return db.setPool name (s.destroy (← db.pool name))

def deleteInsertFileScan (db : Db) (name : Name) (s : InsertFileScan) : Except Abort Db := do
  return db.setPool name (s.destroy (← db.pool name))

-- endScan on a scan after its delete. The destructor has set curPage to NULL, and a pointer that has
-- come there since points nowhere.
def endDeletedScan (db : Db) : Except Abort Unit :=
  if db.freed.curPage none = none then .ok () else .error .undefined

variable {db : Db} {name other : Name} {b : Pool} {k : Pool.Books} {heap : Heap} {recCnt : Int}

@[simp] theorem setPool_same (db : Db) (name : Name) (b : Pool) : (db.setPool name b).files name = some b :=
    Function.update_self ..
@[simp] theorem setPool_other (b : Pool) (apart : other ≠ name) : (db.setPool name b).files other = db.files other :=
  Function.update_of_ne apart _ _
@[simp] theorem setPool_raw (db : Db) (name : Name) (b : Pool) : (db.setPool name b).raw = db.raw := rfl
@[simp] theorem setPool_stale (db : Db) (name : Name) (b : Pool) : (db.setPool name b).stale = db.stale := rfl
@[simp] theorem endDeletedScan_ok (db : Db) : db.endDeletedScan = .ok () := if_pos db.freed.null
@[simp] theorem setPool_setPool (db : Db) (name : Name) (b b' : Pool) :
    (db.setPool name b).setPool name b' = db.setPool name b' := by
  simp [setPool]

theorem setPool_comm (db : Db) (b b' : Pool) (apart : name ≠ other) :
    (db.setPool name b).setPool other b' = (db.setPool other b').setPool name b := by
  simp only [setPool,Function.update_comm apart]

theorem pool_found (found : db.files name = some b) : db.pool name = .ok b := by rw [pool,found]
@[simp] theorem pool_setPool (db : Db) (name : Name) (b : Pool) : (db.setPool name b).pool name = .ok b :=
    pool_found (setPool_same ..)

section methods

variable {b' : Pool} {status : Status}

-- A method of an object on a file is the method on the pool of that file.
theorem scanNext_at {s s' : HeapFileScan} {result : Except Status RID}
    (ran : HeapFileScan.scanNext b s = .ok (result,s',b')) :
    (db.setPool name b).scanNext name s = .ok (result,s',db.setPool name b') := by
  rw [scanNext,pool_setPool,ok_bind,ran,ok_bind]
  dsimp only
  rw [setPool_setPool,pure_ok]

theorem getRecord_at {s : HeapFileScan} : (db.setPool name b).getRecord name s = HeapFileScan.getRecord b s := by
  rw [getRecord,pool_setPool,ok_bind]

theorem deleteRecord_at {s s' : HeapFileScan} (ran : HeapFileScan.deleteRecord b s = .ok (status,s',b')) :
    (db.setPool name b).deleteRecord name s = .ok (status,s',db.setPool name b') := by
  rw [deleteRecord,pool_setPool,ok_bind,ran,ok_bind]
  dsimp only
  rw [setPool_setPool,pure_ok]

theorem endScan_at {s s' : HeapFileScan} (ran : s.endScan b = (status,s',b')) :
    (db.setPool name b).endScan name s = .ok (status,s',db.setPool name b') := by
  rw [endScan,pool_setPool,ok_bind,ran]
  dsimp only
  rw [setPool_setPool,pure_ok]

theorem insertRecord_at {s s' : InsertFileScan} {rec : Record} {result : Except Status RID}
    (ran : InsertFileScan.insertRecord b s rec = .ok (result,s',b')) :
    (db.setPool name b).insertRecord name s rec = .ok (result,s',db.setPool name b') := by
  rw [insertRecord,pool_setPool,ok_bind,ran,ok_bind]
  dsimp only
  rw [setPool_setPool,pure_ok]

theorem deleteHeapFileScan_at (s : HeapFileScan) :
    (db.setPool name b).deleteHeapFileScan name s = .ok (db.setPool name (s.destroy b)) := by
  rw [deleteHeapFileScan,pool_setPool,ok_bind,setPool_setPool,pure_ok]

theorem deleteInsertFileScan_at (s : InsertFileScan) :
    (db.setPool name b).deleteInsertFileScan name s = .ok (db.setPool name (s.destroy b)) := by
  rw [deleteInsertFileScan,pool_setPool,ok_bind,setPool_setPool,pure_ok]

end methods

-- A heap file in the directory, with the books of all that use it.
def Holds (db : Db) (name : Name) (k : Pool.Books) (heap : Heap) (recCnt : Int) : Prop :=
  name ≠ [] ∧ k.Owned ∧ ∃ b, db.files name = some b ∧ b.Keeps k ∧ Stored b.view k.first heap recCnt

theorem Holds.setPool_other (holds : db.Holds name k heap recCnt) (b : Pool) (apart : name ≠ other) :
    (db.setPool other b).Holds name k heap recCnt := by
  obtain ⟨named,owned,b',found,kept,stored⟩ := holds
  exact ⟨named,owned,b',by rw [Db.setPool_other _ apart]; exact found,kept,stored⟩

theorem holds_setPool (named : name ≠ []) (owned : k.Owned) (kept : b.Keeps k)
    (stored : Stored b.view k.first heap recCnt) :
    (db.setPool name b).Holds name k heap recCnt := ⟨named,owned,b,setPool_same ..,kept,stored⟩

theorem openFile_found (named : name ≠ []) (found : db.files name = some b) :
    db.openFile name = (.ok,db.setPool name b.openFile.2) := by
  rw [openFile,if_neg named,found]
  rfl

-- An object that is opened leaves every page as it was.
theorem newHeapFileScan_view {old : Pool} (holds : db.Holds name k heap recCnt) (found : db.files name = some old) :
    ∃ b s c, db.newHeapFileScan name = .ok (.ok,s,db.setPool name b) ∧ HeapFileScan.Scanning k.opened recCnt b s c ∧
      c.heap = heap ∧
      c.remaining = records heap ∧ s.filter = none ∧ b.view = old.view := by
  obtain ⟨named,owned,b,there,kept,stored⟩ := holds
  cases Option.some.inj (found.symm.trans there)
  obtain ⟨b1,opened,kept1,view1⟩ := kept.openFile
  obtain ⟨b2,s,c,constructed,scanning,whole,all,clear,view2⟩ :=
    HeapFileScan.construct_spec kept1 (by rw [view1]; exact stored) db.raw
  refine ⟨b2,s,c,?_,scanning,whole,all,clear,view2.trans view1⟩
  rw [newHeapFileScan,openFile_found named found,opened]
  simp only [pool_setPool,setPool_raw,ok_bind,constructed,setPool_setPool]
  rfl

theorem newHeapFileScan_spec (holds : db.Holds name k heap recCnt) :
    ∃ b s c, db.newHeapFileScan name = .ok (.ok,s,db.setPool name b) ∧ HeapFileScan.Scanning k.opened recCnt b s c ∧
      c.heap = heap ∧
      c.remaining = records heap ∧ s.filter = none := by
  obtain ⟨old,found,_⟩ := holds.2.2
  obtain ⟨b,s,c,made,scanning,whole,all,clear,_⟩ := newHeapFileScan_view holds found
  exact ⟨b,s,c,made,scanning,whole,all,clear⟩

theorem newInsertFileScan_view {old : Pool} (holds : db.Holds name k heap recCnt) (found : db.files name = some old) :
    ∃ b s before n d, db.newInsertFileScan name = .ok (.ok,s,db.setPool name b) ∧ heap = before ++ [(n,d)] ∧
      InsertFileScan.Inserting k.opened recCnt b s before n d ∧ b.view = old.view := by
  obtain ⟨named,owned,b,there,kept,stored⟩ := holds
  cases Option.some.inj (found.symm.trans there)
  obtain ⟨b1,opened,kept1,view1⟩ := kept.openFile
  have owned' : k.opened.Owned := owned
  obtain ⟨b2,s,before,n,d,constructed,split,inserting,view2⟩ :=
    InsertFileScan.construct_spec owned' kept1 (by rw [view1]; exact stored)
    ⟨db.raw.toHeapFile⟩
  refine ⟨b2,s,before,n,d,?_,split,inserting,view2.trans view1⟩
  rw [newInsertFileScan,openFile_found named found,opened]
  simp only [pool_setPool,setPool_raw,ok_bind,constructed,setPool_setPool]
  rfl

theorem newInsertFileScan_spec (holds : db.Holds name k heap recCnt) :
    ∃ b s before n d, db.newInsertFileScan name = .ok (.ok,s,db.setPool name b) ∧ heap = before ++ [(n,d)] ∧
      InsertFileScan.Inserting k.opened recCnt b s before n d := by
  obtain ⟨old,found,_⟩ := holds.2.2
  obtain ⟨b,s,before,n,d,made,split,inserting,_⟩ := newInsertFileScan_view holds found
  exact ⟨b,s,before,n,d,made,split,inserting⟩

-- The end of a scan: endScan and delete, or delete alone.
theorem end_spec (db : Db) (name : Name) {s : HeapFileScan} {c : Cursor} (owned : k.Owned)
    (scanning : HeapFileScan.Scanning k.opened recCnt b s c) :
    ∃ s1 b1 b2, (db.setPool name b).endScan name s = .ok (.ok,s1,db.setPool name b1) ∧
      (db.setPool name b1).deleteHeapFileScan name s1 = .ok (db.setPool name b2) ∧ b2.Keeps k ∧ b2.view = b.view := by
  have owned' : k.opened.Owned := owned
  obtain ⟨b1,s1,ended,kept1,header,cur,view1⟩ := HeapFileScan.endScan_spec owned' scanning
  obtain ⟨kept2,view2⟩ := HeapFile.destroy_unpinned owned header cur kept1
  have destroyed : s1.destroy b1 = s1.toHeapFile.destroy b1 := by
    simp only [HeapFileScan.destroy,HeapFileScan.endScan,cur]
  refine ⟨s1,b1,s1.destroy b1,endScan_at ended,deleteHeapFileScan_at s1,?_,?_⟩
  · rw [destroyed]
    exact kept2
  · rw [destroyed]
    exact view2.trans view1

theorem delete_spec (db : Db) (name : Name) {s : HeapFileScan} {c : Cursor} (owned : k.Owned)
    (scanning : HeapFileScan.Scanning k.opened recCnt b s c) :
    ∃ b', (db.setPool name b).deleteHeapFileScan name s = .ok (db.setPool name b') ∧ b'.Keeps k ∧ b'.view = b.view := by
  obtain ⟨kept,view⟩ := HeapFileScan.destroy_spec owned scanning
  exact ⟨s.destroy b,deleteHeapFileScan_at s,kept,view⟩

theorem deleteInsert_spec (db : Db) (name : Name) {s : InsertFileScan} {before : Heap} {n : Int} {d : Slots}
    (owned : k.Owned)
    (inserting : InsertFileScan.Inserting k.opened recCnt b s before n d) :
    ∃ b', (db.setPool name b).deleteInsertFileScan name s = .ok (db.setPool name b') ∧ b'.Keeps k ∧
      b'.view = b.view := by
  obtain ⟨kept,view⟩ := InsertFileScan.destroy_spec owned inserting
  exact ⟨s.destroy b,deleteInsertFileScan_at s,kept,view⟩

-- The pages of the Unix file.
def length (db : Db) (name : Name) : Nat := (db.files name).elim 0 fun b => b.file.length

theorem length_setPool (db : Db) (name : Name) (b : Pool) : (db.setPool name b).length name = b.file.length := by
  rw [length,setPool_same]
  rfl

-- A file of the same length in its place.
theorem lengths_setPool {name : Name} (same : b.file.length = db.length name) (other : Name) :
    (db.setPool name b).length other = db.length other := by
  by_cases here : other = name
  · rw [here,length_setPool,same]
  · rw [length,setPool_other _ here,length]

theorem length_remove {name : Name} (other : Name) :
    ({db with files := Function.update db.files name none} : Db).length other ≤ db.length other := by
  by_cases here : other = name
  · rw [length,here]
    dsimp only
    rw [Function.update_self]
    exact Nat.zero_le _
  · rw [length]
    dsimp only
    rw [Function.update_of_ne here]
    exact Nat.le_refl _

theorem length_found (found : db.files name = some b) : db.length name = b.file.length := by
  rw [length,found]
  rfl

theorem setPool_self (found : db.files name = some b) : db.setPool name b = db := by
  rw [setPool,← found,Function.update_eq_self]

end Db

-- The heap files of the directory: who uses each, its pages and its record count.
structure HeldFile where
  books : Pool.Books
  heap : Heap
  recCnt : Int

abbrev Shelf := Name → Option HeldFile

namespace Db

variable {db : Db} {shelf : Shelf} {name : Name} {file : HeldFile} {b : Pool}

def Stands (db : Db) (shelf : Shelf) : Prop :=
  ∀ name file, shelf name = some file → db.Holds name file.books file.heap file.recCnt

theorem Stands.put (stands : db.Stands shelf) (file' : HeldFile)
    (holds : (db.setPool name b).Holds name file'.books file'.heap file'.recCnt) :
    (db.setPool name b).Stands (Function.update shelf name (some file')) := by
  intro other found there
  by_cases here : other = name
  · subst here
    rw [Function.update_self] at there
    cases there
    exact holds
  · rw [Function.update_of_ne here] at there
    exact (stands other found there).setPool_other b here

theorem Stands.same (stands : db.Stands shelf) (present : shelf name = some file)
    (holds : (db.setPool name b).Holds name file.books file.heap file.recCnt) : (db.setPool name b).Stands shelf := by
  have back := stands.put file holds
  rwa [← present,Function.update_eq_self] at back

theorem Stands.find (stands : db.Stands shelf) (present : shelf name = some file) :
    ∃ b, db = db.setPool name b ∧ b.Keeps file.books ∧ Stored b.view file.books.first file.heap file.recCnt := by
  obtain ⟨_,_,b,found,kept,stored⟩ := stands name file present
  exact ⟨b,(setPool_self found).symm,kept,stored⟩

theorem Stands.unique {shelf' : Shelf} {file' : HeldFile} (one : db.Stands shelf) (two : db.Stands shelf')
    (present : shelf name = some file)
    (present' : shelf' name = some file') (books : file'.books = file.books) : file'.heap = file.heap := by
  obtain ⟨_,_,b,found,_,stored⟩ := one name file present
  obtain ⟨_,_,b',found',_,stored'⟩ := two name file' present'
  cases Option.some.inj (found.symm.trans found')
  rw [books] at stored'
  exact (stored'.unique stored).1

-- An open object holds pins like any other client. Whoever leaves the file as it was leaves the
-- object where it stands.
theorem Stands.open_scan (stands : db.Stands shelf) (present : shelf name = some file) :
    ∃ b s c opened, db.newHeapFileScan name = .ok (.ok,s,db.setPool name b) ∧ c.heap = file.heap ∧
      c.remaining = records file.heap ∧
      s.filter = none ∧ HeapFileScan.Scanning file.books.opened file.recCnt b s c ∧
      (db.setPool name b).Stands (Function.update shelf name (some opened)) ∧ opened.heap = file.heap ∧
      ∀ (db' : Db) (shelf' : Shelf), db'.Stands shelf' → shelf' name = some opened →
        ∃ b', db' = db'.setPool name b' ∧ HeapFileScan.Scanning file.books.opened file.recCnt b' s c := by
  have holds := stands name file present
  have owned : file.books.opened.Owned := holds.2.1
  obtain ⟨b,s,c,made,scanning,whole,all,clear⟩ := newHeapFileScan_spec holds
  refine ⟨b,s,c,⟨(file.books.opened.hold file.books.first s.hdrDirtyFlag).hold c.pageNo s.curDirtyFlag,
    file.heap,file.recCnt⟩,
    made,whole,all,clear,scanning,stands.put _ (holds_setPool holds.1 ((owned.hold _ _).hold _ _) scanning.kept
      ?_),rfl,?_⟩
  · rw [← whole]
    exact scanning.stored
  · intro db' shelf' stands' there
    obtain ⟨b',back,kept,stored⟩ := stands'.find there
    rw [← whole] at stored
    exact ⟨b',back,kept,stored,scanning.headerPage,scanning.headerPageNo,scanning.curPage,scanning.curPageNo,
      scanning.slot⟩

theorem Stands.open_insert (stands : db.Stands shelf) (present : shelf name = some file) :
    ∃ b s before n d opened, db.newInsertFileScan name = .ok (.ok,s,db.setPool name b) ∧ file.heap = before ++ [(n,d)] ∧
      InsertFileScan.Inserting file.books.opened file.recCnt b s before n d ∧
      (db.setPool name b).Stands (Function.update shelf name (some opened)) ∧ opened.heap = file.heap ∧
      ∀ (db' : Db) (shelf' : Shelf), db'.Stands shelf' → shelf' name = some opened →
        ∃ b', db' = db'.setPool name b' ∧ InsertFileScan.Inserting file.books.opened file.recCnt b' s before n d := by
  have holds := stands name file present
  have owned : file.books.opened.Owned := holds.2.1
  obtain ⟨b,s,before,n,d,made,split,inserting⟩ := newInsertFileScan_spec holds
  refine ⟨b,s,before,n,d,⟨(file.books.opened.hold file.books.first s.hdrDirtyFlag).hold n true,file.heap,file.recCnt⟩,
    made,split,inserting,stands.put _ (holds_setPool holds.1 ((owned.hold _ _).hold _ _) inserting.kept ?_),rfl,?_⟩
  · rw [split]
    exact inserting.stored
  · intro db' shelf' stands' there
    obtain ⟨b',back,kept,stored⟩ := stands'.find there
    rw [split] at stored
    exact ⟨b',back,kept,stored,inserting.headerPage,inserting.headerPageNo,inserting.curPage,inserting.curPageNo⟩

-- The ends of objects that were opened on a directory that stands.
theorem Stands.restored {b' : Pool} {s : HeapFileScan} {c : Cursor} (stands : db.Stands shelf)
    (present : shelf name = some file)
    (scanning : HeapFileScan.Scanning file.books.opened file.recCnt b s c) (whole : c.heap = file.heap)
    (kept : b'.Keeps file.books)
    (view : b'.view = b.view) : (db.setPool name b').Stands shelf := by
  have holds := stands name file present
  refine stands.same present (holds_setPool holds.1 holds.2.1 kept ?_)
  rw [view,← whole]
  exact scanning.stored

theorem Stands.close_insert {s : InsertFileScan} {before : Heap} {n : Int} {d : Slots} {recCnt : Int}
    (stands : db.Stands shelf)
    (present : shelf name = some file) (inserting : InsertFileScan.Inserting file.books.opened recCnt b s before n d) :
    ∃ b', (db.setPool name b).deleteInsertFileScan name s = .ok (db.setPool name b') ∧
      (db.setPool name b').Stands (Function.update shelf name (some ⟨file.books,before ++ [(n,d)],recCnt⟩)) := by
  have holds := stands name file present
  obtain ⟨b',deleted,kept,view⟩ := deleteInsert_spec db name holds.2.1 inserting
  exact ⟨b',deleted,stands.put ⟨_,_,_⟩ (holds_setPool holds.1 holds.2.1 kept (by rw [view]; exact inserting.stored))⟩

-- A file that is open somewhere is still found with the same records.
theorem find_opened {other : Name} {found opened : HeldFile} (there : shelf other = some found)
    (present : shelf name = some file)
    (same : opened.heap = file.heap) :
    ∃ found', (Function.update shelf name (some opened) : Shelf) other = some found' ∧ found'.heap = found.heap := by
  by_cases here : other = name
  · subst here
    rw [present] at there
    cases there
    exact ⟨opened,Function.update_self ..,same⟩
  · exact ⟨found,by rw [Function.update_of_ne here]; exact there,rfl⟩

-- A file with one more scan on it, or one more object that inserts.
def scanned (file : HeldFile) (s : HeapFileScan) (c : Cursor) : HeldFile :=
  ⟨(file.books.opened.hold file.books.first s.hdrDirtyFlag).hold c.pageNo s.curDirtyFlag,c.heap,file.recCnt⟩

def written (file : HeldFile) (s : InsertFileScan) (before : Heap) (n : Int) (d : Slots) (recCnt : Int) : HeldFile :=
  ⟨(file.books.opened.hold file.books.first s.hdrDirtyFlag).hold n true,before ++ [(n,d)],recCnt⟩

-- The directory while such an object is in use. The rest of it stands as the shelf says, and the
-- object may be taken up at any time.
structure Scans (db : Db) (shelf : Shelf) (name : Name) (file : HeldFile) (s : HeapFileScan) (c : Cursor) : Prop where
  stands : db.Stands (Function.update shelf name (some (scanned file s c)))
  there : ∃ b, HeapFileScan.Scanning file.books.opened file.recCnt b s c
  named : name ≠ []
  owned : file.books.Owned

structure Writes (db : Db) (shelf : Shelf) (name : Name) (file : HeldFile) (s : InsertFileScan) (before : Heap)
    (n : Int) (d : Slots)
    (recCnt : Int) : Prop where
  stands : db.Stands (Function.update shelf name (some (written file s before n d recCnt)))
  there : ∃ b, InsertFileScan.Inserting file.books.opened recCnt b s before n d
  named : name ≠ []
  owned : file.books.Owned

section open_objects

variable {s : HeapFileScan} {c : Cursor} {rel : InsertFileScan} {before : Heap} {n : Int} {d : Slots}
  {recCnt : Int} {old : Option HeldFile}

theorem Stands.resume (stands : db.Stands shelf) (present : shelf name = some (scanned file s c))
    (there : ∃ b, HeapFileScan.Scanning file.books.opened file.recCnt b s c) :
    ∃ b, db = db.setPool name b ∧ HeapFileScan.Scanning file.books.opened file.recCnt b s c := by
  obtain ⟨b,back,kept,stored⟩ := stands.find present
  obtain ⟨_,scanning⟩ := there
  exact ⟨b,back,kept,stored,scanning.headerPage,scanning.headerPageNo,scanning.curPage,scanning.curPageNo,scanning.slot⟩

theorem Stands.resume_insert (stands : db.Stands shelf)
    (present : shelf name = some (written file rel before n d recCnt))
    (there : ∃ b, InsertFileScan.Inserting file.books.opened recCnt b rel before n d) :
    ∃ b, db = db.setPool name b ∧ InsertFileScan.Inserting file.books.opened recCnt b rel before n d := by
  obtain ⟨b,back,kept,stored⟩ := stands.find present
  obtain ⟨_,inserting⟩ := there
  exact ⟨b,back,kept,stored,inserting.headerPage,inserting.headerPageNo,inserting.curPage,inserting.curPageNo⟩

theorem Stands.scans (stands : db.Stands (Function.update shelf name old)) (named : name ≠ [])
    (owned : file.books.Owned)
    (scanning : HeapFileScan.Scanning file.books.opened file.recCnt b s c) :
    (db.setPool name b).Scans shelf name file s c := by
  have owned' : file.books.opened.Owned := owned
  refine ⟨?_,⟨b,scanning⟩,named,owned⟩
  have back := stands.put (scanned file s c) (holds_setPool named ((owned'.hold _ _).hold _ _) scanning.kept
    scanning.stored)
  rwa [Function.update_idem] at back

theorem Stands.writes (stands : db.Stands (Function.update shelf name old)) (named : name ≠ [])
    (owned : file.books.Owned)
    (inserting : InsertFileScan.Inserting file.books.opened recCnt b rel before n d) :
    (db.setPool name b).Writes shelf name file rel before n d recCnt := by
  have owned' : file.books.opened.Owned := owned
  refine ⟨?_,⟨b,inserting⟩,named,owned⟩
  have back := stands.put (written file rel before n d recCnt)
    (holds_setPool named ((owned'.hold _ _).hold _ _) inserting.kept inserting.stored)
  rwa [Function.update_idem] at back

theorem Scans.resume (scans : db.Scans shelf name file s c) :
    ∃ b, db = db.setPool name b ∧ HeapFileScan.Scanning file.books.opened file.recCnt b s c :=
  scans.stands.resume (Function.update_self ..) scans.there

theorem Scans.filtered (scans : db.Scans shelf name file s c) (filter : Option Condition) :
    db.Scans shelf name file {s with filter := filter} c := by
  obtain ⟨b,scanning⟩ := scans.there
  exact ⟨scans.stands,⟨b,scanning.filtered filter⟩,scans.named,scans.owned⟩

theorem Stands.start_scan (stands : db.Stands shelf) (present : shelf name = some file) :
    ∃ db' s c, db.newHeapFileScan name = .ok (.ok,s,db') ∧ db'.Scans shelf name file s c ∧ c.heap = file.heap ∧
      c.remaining = records file.heap ∧ s.filter = none := by
  obtain ⟨b,s,c,made,scanning,whole,all,clear⟩ := newHeapFileScan_spec (stands name file present)
  refine ⟨db.setPool name b,s,c,made,?_,whole,all,clear⟩
  have held : db.Stands (Function.update shelf name (some file)) := by rwa [← present,Function.update_eq_self]
  exact held.scans (stands name file present).1 (stands name file present).2.1 scanning

theorem Stands.start_insert (stands : db.Stands shelf) (present : shelf name = some file) :
    ∃ db' s before n d, db.newInsertFileScan name = .ok (.ok,s,db') ∧ file.heap = before ++ [(n,d)] ∧
      db'.Writes shelf name file s before n d file.recCnt := by
  obtain ⟨b,s,before,n,d,made,split,inserting⟩ := newInsertFileScan_spec (stands name file present)
  refine ⟨db.setPool name b,s,before,n,d,made,split,?_⟩
  have held : db.Stands (Function.update shelf name (some file)) := by rwa [← present,Function.update_eq_self]
  exact held.writes (stands name file present).1 (stands name file present).2.1 inserting

-- A scan has moved and an object has inserted into another file.
theorem Scans.both {result : Name} {target : HeldFile} {bt : Pool} {s' : HeapFileScan} {c' : Cursor}
    (apart : name ≠ result)
    (scans : db.Scans (Function.update shelf result old) name file s c)
    (scanning : HeapFileScan.Scanning file.books.opened file.recCnt b s' c') (named : result ≠ [])
    (owned : target.books.Owned)
    (inserting : InsertFileScan.Inserting target.books.opened recCnt bt rel before n d) :
    ((db.setPool name b).setPool result bt).Scans (Function.update shelf result
      (some (written target rel before n d recCnt))) name file s' c' := by
  have moved := scans.stands.scans scans.named scans.owned scanning
  have stands := moved.stands
  rw [Function.update_comm apart.symm] at stands
  have wrote := (stands.writes named owned inserting).stands
  rw [Function.update_comm apart] at wrote
  exact ⟨wrote,⟨b,scanning⟩,scans.named,scans.owned⟩

-- The destructors.
theorem Scans.delete (scans : db.Scans shelf name file s c) (present : shelf name = some file)
    (whole : c.heap = file.heap) :
    ∃ db', db.deleteHeapFileScan name s = .ok db' ∧ db'.Stands shelf := by
  obtain ⟨b,back,scanning⟩ := scans.resume
  obtain ⟨b',deleted,kept,view⟩ := db.delete_spec name scans.owned scanning
  refine ⟨db.setPool name b',by rw [back,deleted,setPool_setPool],?_⟩
  have held := scans.stands.put file (holds_setPool scans.named scans.owned kept
    (by rw [view,← whole]; exact scanning.stored))
  rwa [Function.update_idem,← present,Function.update_eq_self] at held

theorem Scans.finish (scans : db.Scans shelf name file s c) (present : shelf name = some file)
    (whole : c.heap = file.heap) :
    ∃ s1 db1 db', db.endScan name s = .ok (.ok,s1,db1) ∧ db1.deleteHeapFileScan name s1 = .ok db' ∧
      db'.Stands shelf := by
  obtain ⟨b,back,scanning⟩ := scans.resume
  obtain ⟨s1,b1,b2,ended,deleted,kept,view⟩ := db.end_spec name scans.owned scanning
  refine ⟨s1,db.setPool name b1,db.setPool name b2,by rw [back,ended,setPool_setPool],deleted,?_⟩
  have held := scans.stands.put file (holds_setPool scans.named scans.owned kept
    (by rw [view,← whole]; exact scanning.stored))
  rwa [Function.update_idem,← present,Function.update_eq_self] at held

theorem Writes.delete (writes : db.Writes shelf name file rel before n d recCnt) :
    ∃ db', db.deleteInsertFileScan name rel = .ok db' ∧
      db'.Stands (Function.update shelf name (some ⟨file.books,before ++ [(n,d)],recCnt⟩)) := by
  obtain ⟨b,back,inserting⟩ := writes.stands.resume_insert (Function.update_self ..) writes.there
  obtain ⟨b',deleted,kept,view⟩ := db.deleteInsert_spec name writes.owned inserting
  refine ⟨db.setPool name b',by rw [back,deleted,setPool_setPool],?_⟩
  have held := writes.stands.put ⟨file.books,before ++ [(n,d)],recCnt⟩
    (holds_setPool writes.named writes.owned kept (by rw [view]; exact inserting.stored))
  rwa [Function.update_idem] at held

end open_objects

-- What a scan without a condition reads of a file.
def readAll (name : Name) : Nat → Db → HeapFileScan → Except Abort (List (List UInt8))
  | 0,_,_ => throw .diverges
  | turns+1,db,hfs => do
    let (next,hfs,db) ← db.scanNext name hfs
    match next with
    | .error _ => return []
    | .ok _ =>
      match ← db.getRecord name hfs with
      | .error _ => throw .exit
      | .ok rec => return rec.data::(← readAll name turns db hfs)

def contents (db : Db) (name : Name) : Except Abort (List (List UInt8)) := do
  let (status,hfs,db) ← db.newHeapFileScan name
  if status ≠ .ok then throw .undefined
  readAll name (HeapFileScan.recordTurns (← db.pool name)) db hfs

theorem readAll_spec (db : Db) (name : Name) {s : HeapFileScan} {c : Cursor} (turns : Nat) (owned : k.Owned)
    (scanning : HeapFileScan.Scanning k recCnt b s c) (clear : s.filter = none) (enough : c.remaining.length < turns) :
    readAll name turns (db.setPool name b) s = .ok (c.remaining.map Prod.snd) := by
  induction turns generalizing b s c with
  | zero => cases enough
  | succ turns ih =>
    obtain ⟨b1,s1,c1,moves,clear1,found⟩ := HeapFileScan.scanNext_all owned scanning clear
    unfold readAll
    rcases found with ⟨eof,nothing,_⟩ | ⟨bytes,found,read,remaining⟩
    · rw [Db.scanNext_at eof,nothing]
      rfl
    · rw [remaining,List.length_cons] at enough
      rw [Db.scanNext_at found,ok_bind]
      dsimp only
      rw [Db.getRecord_at,read,ok_bind]
      dsimp only
      rw [ih moves.scanning clear1 (by omega),remaining]
      rfl

theorem contents_spec (stands : db.Stands shelf) (present : shelf name = some file) :
    db.contents name = .ok ((records file.heap).map Prod.snd) := by
  have owned : file.books.opened.Owned := (stands name file present).2.1
  obtain ⟨b,s,c,made,scanning,_,all,clear⟩ := newHeapFileScan_spec (stands name file present)
  rw [contents,made,ok_bind]
  dsimp only
  rw [if_neg (not_not_intro rfl),pool_setPool,ok_bind,readAll_spec db name _ owned scanning clear scanning.turns.2,all]

theorem exists_ok {outcome : Except Abort (Status × Db)} {status : Status}
    (ran : outcome.toOption.map Prod.fst = some status) :
    ∃ db', outcome = .ok (status,db') := by
  cases outcome with
  | error a => cases ran
  | ok result =>
    obtain ⟨status',db'⟩ := result
    cases (Option.some.inj ran : status' = status)
    exact ⟨db',rfl⟩

theorem exists_ok_read {α : Type} {outcome : Except Abort (Status × Db)} {status : Status} {name : Name}
    {a : α} (seen : List (List UInt8) → α)
    (ran : (outcome.toOption.bind fun r => (r.2.contents name).toOption.map fun recs => (r.1,seen recs)) =
      some (status,a)) :
    ∃ db' recs, outcome = .ok (status,db') ∧ db'.contents name = .ok recs ∧ seen recs = a := by
  cases outcome with
  | error error => cases ran
  | ok result =>
    obtain ⟨status',db'⟩ := result
    obtain ⟨recs,read,same⟩ := Option.map_eq_some_iff.mp ran
    cases same
    refine ⟨db',recs,rfl,?_,rfl⟩
    cases found : db'.contents name with
    | error error =>
      rw [found] at read
      cases read
    | ok recs' =>
      rw [found] at read
      cases read
      rfl

theorem exists_ok_contents {outcome : Except Abort (Status × Db)} {status : Status} {name : Name}
    {recs : List (List UInt8)}
    (ran : (outcome.toOption.bind fun r => (r.2.contents name).toOption.map fun recs => (r.1,recs)) =
      some (status,recs)) :
    ∃ db', outcome = .ok (status,db') ∧ db'.contents name = .ok recs := by
  obtain ⟨db',recs',done,read,rfl⟩ := exists_ok_read id ran
  exact ⟨db',done,read⟩

-- A directory of heap files that have just been loaded.
def holding (stale : Name → Int → Page) (raw : HeapFileScan) (tables : List (Name × List (List UInt8))) : Db where
  files name := (tables.lookup name).bind fun recs => (loadedFile (stale name) name recs).toOption.map Prod.snd
  stale := stale
  raw := raw
  freed := .untouched

def Loads (stale : Name → Int → Page) (tables : List (Name × List (List UInt8))) : Prop :=
  ∀ t ∈ tables, t.1 ≠ [] ∧ (∀ bytes ∈ t.2, 1 ≤ bytes.length ∧ bytes.length < 2 ^ 31) ∧
    (loadedFile (stale t.1) t.1 t.2).toOption.map (fun r => r.1.map Prod.snd) = some t.2

instance (stale : Name → Int → Page) (tables : List (Name × List (List UInt8))) : Decidable (Loads stale tables) :=
  inferInstanceAs (Decidable (∀ t ∈ tables, _ ∧ _ ∧ _))

theorem holding_stands {stale : Name → Int → Page} {raw : HeapFileScan} {tables : List (Name × List (List UInt8))}
    (loads : Loads stale tables) :
    ∃ shelf, (holding stale raw tables).Stands shelf ∧ ∀ name recs, tables.lookup name = some recs →
      ∃ file, shelf name = some file ∧ (records file.heap).map Prod.snd = recs := by
  have one : ∀ name, ∃ found : Option HeldFile,
      (∀ file, found = some file → (holding stale raw tables).Holds name file.books file.heap file.recCnt) ∧
      ∀ recs, tables.lookup name = some recs → ∃ file, found = some file ∧ (records file.heap).map Prod.snd = recs := by
    intro name
    cases listed : tables.lookup name with
    | none => exact ⟨none,fun file there => (nomatch there),fun recs there => (nomatch there)⟩
    | some recs =>
      obtain ⟨before,after,rfl,_⟩ := List.lookup_eq_some_iff.mp listed
      obtain ⟨named,storable,whole⟩ := loads (name,recs) (List.mem_append_right _ (List.mem_cons_self ..))
      obtain ⟨told,hdr,heap,recCnt,b,loaded,kept,stored,same⟩ := loadedFile_spec (stale name) name storable
      rw [loaded] at whole
      refine ⟨some ⟨{Pool.Books.unused with first := hdr},heap,recCnt⟩,?_,?_⟩
      · intro file there
        cases there
        refine ⟨named,fun _ marked => False.elim marked,b,?_,kept,stored⟩
        rw [holding]
        dsimp only
        rw [listed,Option.bind_some,loaded]
        rfl
      · intro recs' there
        cases there
        exact ⟨_,rfl,same.trans (Option.some.inj whole)⟩
  choose shelf held listed using one
  exact ⟨shelf,fun name file there => held name file there,fun name recs there => listed name recs there⟩

end Db
end Minirel
