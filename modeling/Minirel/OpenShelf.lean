import Minirel.ThetaJoin
import Minirel.HeapRoom

namespace Minirel
open ByteMemory SlotDirectory Page Heap

-- What an open object that stands on this page adds to the books of its file.
def HeldFile.pin (file : HeldFile) (hdr : Bool) (pageNo : Int) (dirty : Bool) : HeldFile :=
  {file with books := (file.books.opened.hold file.books.first hdr).hold pageNo dirty}

-- The file with other pages behind the same books.
def HeldFile.refill (file : HeldFile) (heap : Heap) (recCnt : Int) : HeldFile := ⟨file.books,heap,recCnt⟩

theorem HeldFile.pin_comm (file : HeldFile) (x y : Bool) (n m : Int) (z w : Bool) :
    (file.pin x n z).pin y m w = (file.pin y m w).pin x n z := by
  simp only [pin]
  congr 1
  exact Pool.Books.hold_two_comm file.books.opened.opened file.books.first n file.books.first m x z y w

namespace Shelf

-- A change to the file of one name, if there is one.
def on (shelf : Shelf) (name : Name) (f : HeldFile → HeldFile) : Shelf :=
  Function.update shelf name ((shelf name).map f)

def withScan (shelf : Shelf) (name : Name) (s : HeapFileScan) (c : Cursor) : Shelf :=
  shelf.on name fun file => file.pin s.hdrDirtyFlag c.pageNo s.curDirtyFlag

def withInsert (shelf : Shelf) (name : Name) (rel : InsertFileScan) (n : Int) : Shelf :=
  shelf.on name fun file => file.pin rel.hdrDirtyFlag n true

def refill (shelf : Shelf) (name : Name) (heap : Heap) (recCnt : Int) : Shelf :=
  shelf.on name fun file => file.refill heap recCnt

-- A heap file of the shelf, by the page its header is on and its records.
def Shows (shelf : Shelf) (name : Name) (first : Int) (heap : Heap) : Prop :=
  ∃ file, shelf name = some file ∧ file.books.first = first ∧ file.heap = heap

def Owned (shelf : Shelf) : Prop := ∀ name file, shelf name = some file → name ≠ [] ∧ file.books.Owned

variable {shelf : Shelf} {name other : Name} {first recCnt : Int} {heap heap' : Heap} {f g : HeldFile → HeldFile}

theorem on_same (shelf : Shelf) (name : Name) (f : HeldFile → HeldFile) : shelf.on name f name = (shelf name).map f :=
  Function.update_self ..

theorem on_other (shelf : Shelf) (f : HeldFile → HeldFile) (apart : other ≠ name) :
    shelf.on name f other = shelf other :=
  Function.update_of_ne apart ..

-- Changes that do not interfere on one file may change places whatever the names are.
theorem on_comm (shelf : Shelf) (name other : Name) (same : ∀ file, g (f file) = f (g file)) :
    (shelf.on name f).on other g = (shelf.on other g).on name f := by
  by_cases here : other = name
  · subst here
    unfold on
    rw [Function.update_idem,Function.update_idem,Function.update_self,Function.update_self,Option.map_map,
      Option.map_map]
    congr 2
    exact funext same
  · have apart : name ≠ other := fun equal => here equal.symm
    unfold on
    rw [Function.update_of_ne here,Function.update_of_ne apart,Function.update_comm apart]

theorem withInsert_withScan (shelf : Shelf) (name other : Name) (rel : InsertFileScan) (n : Int) (s : HeapFileScan)
    (c : Cursor) : (shelf.withInsert name rel n).withScan other s c = (shelf.withScan other s c).withInsert
    name rel n :=
  on_comm shelf name other fun file => file.pin_comm ..

theorem withScan_refill (shelf : Shelf) (name other : Name) (s : HeapFileScan) (c : Cursor) (heap : Heap)
    (recCnt : Int) :
    (shelf.withScan name s c).refill other heap recCnt = (shelf.refill other heap recCnt).withScan name s c :=
  on_comm shelf name other fun _ => rfl

theorem refill_refill (shelf : Shelf) (name : Name) (heap heap' : Heap) (recCnt recCnt' : Int) :
    (shelf.refill name heap recCnt).refill name heap' recCnt' = shelf.refill name heap' recCnt' := by
  unfold refill on
  rw [Function.update_idem,Function.update_self,Option.map_map]
  rfl

theorem refill_present {file : HeldFile} (present : shelf name = some file) (heap : Heap) (recCnt : Int) :
    shelf.refill name heap recCnt = Function.update shelf name (some ⟨file.books,heap,recCnt⟩) := by
  rw [refill,on,present]
  rfl

theorem refill_self {file : HeldFile} (present : shelf name = some file) :
    shelf.refill name file.heap file.recCnt = shelf := by
  rw [refill_present present]
  exact (congrArg _ present.symm).trans (Function.update_eq_self ..)

theorem Owned.on (owned : shelf.Owned) (name : Name) (keeps : ∀ file : HeldFile, file.books.Owned →
    (f file).books.Owned) :
    (shelf.on name f).Owned := by
  intro other file there
  by_cases here : other = name
  · subst here
    rw [on_same] at there
    obtain ⟨old,found,rfl⟩ := Option.map_eq_some_iff.mp there
    exact ⟨(owned _ old found).1,keeps old (owned _ old found).2⟩
  · rw [on_other _ _ here] at there
    exact owned other file there

theorem Owned.withScan (owned : shelf.Owned) (name : Name) (s : HeapFileScan) (c : Cursor) :
    (shelf.withScan name s c).Owned :=
  owned.on name fun file own => Pool.Books.Owned.hold (Pool.Books.Owned.hold (k:=file.books.opened) own _ _) _ _

theorem Owned.withInsert (owned : shelf.Owned) (name : Name) (rel : InsertFileScan) (n : Int) :
    (shelf.withInsert name rel n).Owned :=
  owned.on name fun file own => Pool.Books.Owned.hold (Pool.Books.Owned.hold (k:=file.books.opened) own _ _) _ _

theorem Owned.refill (owned : shelf.Owned) (name : Name) (heap : Heap) (recCnt : Int) :
    (shelf.refill name heap recCnt).Owned :=
  owned.on name fun _ own => own

-- Open objects do not show, and of two names of one file both show what is put there.
theorem Shows.on (shows : shelf.Shows name first heap) (other : Name)
    (keeps : ∀ file : HeldFile, (f file).books.first = file.books.first ∧ (f file).heap = file.heap) :
    (shelf.on other f).Shows name first heap := by
  obtain ⟨file,found,at_first,pages⟩ := shows
  by_cases here : name = other
  · subst here
    exact ⟨f file,by rw [on_same,found]; rfl,(keeps file).1.trans at_first,(keeps file).2.trans pages⟩
  · exact ⟨file,by rw [on_other _ _ here]; exact found,at_first,pages⟩

theorem Shows.withScan (shows : shelf.Shows name first heap) (other : Name) (s : HeapFileScan) (c : Cursor) :
    (shelf.withScan other s c).Shows name first heap := shows.on other fun _ => ⟨rfl,rfl⟩

theorem Shows.withInsert (shows : shelf.Shows name first heap) (other : Name) (rel : InsertFileScan) (n : Int) :
    (shelf.withInsert other rel n).Shows name first heap := shows.on other fun _ => ⟨rfl,rfl⟩

theorem Shows.refill (shows : shelf.Shows name first heap) (heap' : Heap) (recCnt : Int) :
    (shelf.refill name heap' recCnt).Shows name first heap' := by
  obtain ⟨file,found,at_first,_⟩ := shows
  exact ⟨file.refill heap' recCnt,by rw [Shelf.refill,on_same,found]; rfl,at_first,rfl⟩

theorem Shows.refill_other (shows : shelf.Shows name first heap) (apart : name ≠ other) (heap' : Heap) (recCnt : Int) :
    (shelf.refill other heap' recCnt).Shows name first heap := by
  obtain ⟨file,found,rest⟩ := shows
  exact ⟨file,by rw [Shelf.refill,on_other _ _ apart]; exact found,rest⟩

theorem Shows.unique (shows : shelf.Shows name first heap) (shows' : shelf.Shows name first' heap') :
    first = first' ∧ heap = heap' := by
  obtain ⟨file,found,rfl,rfl⟩ := shows
  obtain ⟨_,found',rfl,rfl⟩ := shows'
  cases found.symm.trans found'
  exact ⟨rfl,rfl⟩

end Shelf

-- The members of an open scan and of an object that inserts, as far as they point somewhere.
structure HeapFileScan.At (first : Int) (s : HeapFileScan) (c : Cursor) : Prop where
  headerPage : s.headerPage = some first
  headerPageNo : s.headerPageNo = first
  curPage : s.curPage = some c.pageNo
  curPageNo : s.curPageNo = c.pageNo
  slot : s.curRec.slotNo = c.next - 1

structure InsertFileScan.At (first : Int) (rel : InsertFileScan) (n : Int) : Prop where
  headerPage : rel.headerPage = some first
  headerPageNo : rel.headerPageNo = first
  curPage : rel.curPage = some n
  curPageNo : rel.curPageNo = n

-- Where a record comes to lie: in the lowest free slot of the last page, or on a new page behind it.
-- A record that is refused may leave such a page without records.
inductive Heap.Lands (before : Heap) (n : Int) (d : Slots) (bytes : List UInt8) :
    Except Status RID → Heap → Int → Slots → Prop where
  | here (room : bytes.length + slotSize ≤ spaceLeft d) :
      Lands before n d bytes (.ok ⟨n,firstFree d⟩) before n (put d bytes)
  | newPage (m : Int) (full : spaceLeft d < bytes.length + slotSize) (fresh : m ∉ pageNos (before ++ [(n,d)]))
      (fits : bytes.length + slotSize ≤ dataSize) :
      Lands before n d bytes (.ok ⟨m,0⟩) (before ++ [(n,d)]) m (put [] bytes)
  | refused (status : Status) (failed : status ≠ .ok) : Lands before n d bytes (.error status) before n d
  | linked (m : Int) (status : Status) (failed : status ≠ .ok) (fresh : m ∉ pageNos (before ++ [(n,d)])) :
      Lands before n d bytes (.error status) (before ++ [(n,d)]) m []

namespace InsertFileScan

variable {k : Pool.Books} {recCnt : Int} {b : Pool} {s : InsertFileScan} {before : Heap} {n : Int} {d : Slots}
  {bytes : List UInt8}

theorem Inserting.fresh {m : Int} {e : Slots} (inserting : Inserting k recCnt b s (before ++ [(n,d)]) m e) :
    m ∉ pageNos (before ++ [(n,d)]) := by
  have nodup := inserting.stored.nodup
  rw [pageNos_append,List.nodup_append] at nodup
  exact fun member => nodup.2.2 m member m (List.mem_cons_self ..) rfl

theorem insertRecord_lands (owned : k.Owned) (positive : bytes ≠ [])
    (inserting : Inserting k recCnt b s before n d) :
    ∃ result s' b' recCnt' before' n' d', insertRecord b s (.of bytes) = .ok (result,s',b') ∧
      Inserting k recCnt' b' s' before' n' d' ∧ Heap.Lands before n d bytes result before' n' d' := by
  by_cases long : (Record.of bytes).length % 2 ^ 32 > dataSize
  · exact ⟨_,s,b,recCnt,before,n,d,insert_long long,inserting,.refused _ (by decide)⟩
  rcases lt_or_ge (spaceLeft d) (bytes.length + slotSize) with full | room
  · rw [inserting.insert_short long,inserting.put_full full,insertOnNewPage]
    rcases linkNewPage_spec owned inserting with failed | ⟨b1,s1,m,linked,now,_⟩
    · refine ⟨.error .unixErr,s,b,recCnt,before,n,d,?_,inserting,.refused _ (by decide)⟩
      simp only [linkNewPage,failed]
      rfl
    · obtain ⟨p,_,read,held,next⟩ := now.page
      rw [linked,ok_bind]
      dsimp only
      rw [read,ok_bind]
      rcases lt_or_ge (spaceLeft []) (bytes.length + slotSize) with never | fits
      · rw [held.insert_full never]
        exact ⟨_,s1,b1,recCnt,_,m,[],rfl,now,.linked m .noSpace (by decide) now.fresh⟩
      · obtain ⟨q,inserted,held',next'⟩ := held.insert_room fits
        obtain ⟨s2,b2,counted,done⟩ := now.counted held' (next'.trans next) (full_put now.stored.full_page positive)
        rw [inserted]
        dsimp only
        rw [counted]
        have whole : spaceLeft [] = dataSize := rfl
        exact ⟨_,s2,b2,_,_,m,_,rfl,done,.newPage m full now.fresh (by omega)⟩
  · obtain ⟨b',ran,standing⟩ := inserting.standing.insert_room positive room
    exact ⟨_,_,b',_,before,n,_,ran,standing.inserting,.here room⟩

end InsertFileScan

namespace Db

variable {db : Db} {shelf : Shelf} {name : Name} {first : Int} {s : HeapFileScan} {c : Cursor} {rel : InsertFileScan}
  {before heap : Heap} {n : Int} {d : Slots} {bytes : List UInt8}

theorem Stands.owned (stands : db.Stands shelf) : shelf.Owned := fun name file there =>
  ⟨(stands name file there).1,(stands name file there).2.1⟩

-- A scan taken up again.
theorem Stands.with_scan (stands : db.Stands (shelf.withScan name s c)) (owned : shelf.Owned)
    (shows : shelf.Shows name first c.heap) (at_ : s.At first c) :
    ∃ file, shelf name = some file ∧ file.heap = c.heap ∧ file.books.first = first ∧ db.Scans shelf name file s c := by
  obtain ⟨file,found,rfl,pages⟩ := shows
  have pinned : shelf.withScan name s c = Function.update shelf name (some (scanned file s c)) := by
    rw [Shelf.withScan,Shelf.on,found,scanned,← pages]
    rfl
  rw [pinned] at stands
  obtain ⟨b,_,kept,stored⟩ := stands.find (Function.update_self ..)
  exact ⟨file,found,pages,rfl,stands,⟨b,kept,stored,at_.headerPage,at_.headerPageNo,at_.curPage,at_.curPageNo,at_.slot⟩,
    (owned name file found).1,(owned name file found).2⟩

theorem Scans.with_scan {file : HeldFile} (scans : db.Scans shelf name file s c) (found : shelf name = some file)
    (pages : file.heap = c.heap) : db.Stands (shelf.withScan name s c) ∧ s.At file.books.first c := by
  have pinned : shelf.withScan name s c = Function.update shelf name (some (scanned file s c)) := by
    rw [Shelf.withScan,Shelf.on,found,scanned,← pages]
    rfl
  obtain ⟨b,scanning⟩ := scans.there
  rw [pinned]
  exact ⟨scans.stands,scanning.headerPage,scanning.headerPageNo,scanning.curPage,scanning.curPageNo,scanning.slot⟩

theorem Stands.open_with_scan (stands : db.Stands shelf) (shows : shelf.Shows name first heap) :
    ∃ db' s c, db.newHeapFileScan name = .ok (.ok,s,db') ∧ db'.Stands (shelf.withScan name s c) ∧ s.At first c ∧
      c.heap = heap ∧ c.remaining = records heap ∧ s.filter = none := by
  obtain ⟨file,found,rfl,rfl⟩ := shows
  obtain ⟨db',s,c,made,scans,whole,all,clear⟩ := stands.start_scan found
  obtain ⟨stands',at_⟩ := scans.with_scan found whole.symm
  exact ⟨db',s,c,made,stands',at_,whole,all,clear⟩

theorem Stands.open_with_insert (stands : db.Stands shelf) (shows : shelf.Shows name first heap) :
    ∃ db' rel before n d, db.newInsertFileScan name = .ok (.ok,rel,db') ∧ heap = before ++ [(n,d)] ∧
      db'.Stands (shelf.withInsert name rel n) ∧ rel.At first n := by
  obtain ⟨file,found,rfl,rfl⟩ := shows
  obtain ⟨db',rel,before,n,d,made,split,writes⟩ := stands.start_insert found
  obtain ⟨b,inserting⟩ := writes.there
  refine ⟨db',rel,before,n,d,made,split,?_,inserting.headerPage,inserting.headerPageNo,inserting.curPage,
    inserting.curPageNo⟩
  have pinned : shelf.withInsert name rel n = Function.update shelf name
      (some (written file rel before n d file.recCnt)) := by
    rw [Shelf.withInsert,Shelf.on,found,written,← split]
    rfl
  rw [pinned]
  exact writes.stands

-- scanNext on one of the open objects, whatever else is open.
theorem Stands.next_record (stands : db.Stands (shelf.withScan name s c)) (owned : shelf.Owned)
    (shows : shelf.Shows name first c.heap) (at_ : s.At first c) :
    ∃ result s' c' db', db.scanNext name s = .ok (result,s',db') ∧ db'.Stands (shelf.withScan name s' c') ∧
      s'.At first c' ∧ c'.heap = c.heap ∧ s'.filter = s.filter ∧
      ((result = .error .fileEof ∧ ∀ e ∈ c.remaining, s.matchRec (.of e.2) = false) ∨
        ∃ skipped bytes, result = .ok s'.curRec ∧ c.remaining = skipped ++ (s'.curRec,bytes)::c'.remaining ∧
          (∀ e ∈ skipped, s.matchRec (.of e.2) = false) ∧ s.matchRec (.of bytes) = true ∧
          c'.Current (s'.curRec,bytes) ∧ db'.getRecord name s' = .ok (.ok (.of bytes))) := by
  obtain ⟨file,found,pages,rfl,scans⟩ := stands.with_scan owned shows at_
  obtain ⟨b,back,scanning⟩ := scans.resume
  have owned' : file.books.opened.Owned := scans.owned
  obtain ⟨b',s',c',moves,finds⟩ := HeapFileScan.scanNext_spec owned' scanning
  have scans' := scans.stands.scans scans.named scans.owned moves.scanning
  obtain ⟨stands',at_'⟩ := scans'.with_scan found (pages.trans moves.heap.symm)
  generalize ran : HeapFileScan.scanNext b s = outcome at finds
  cases finds with
  | eof passed done =>
    refine ⟨_,s',c',db.setPool name b',?_,stands',at_',moves.heap,moves.filter,.inl ⟨rfl,passed⟩⟩
    rw [back,scanNext_at ran,setPool_setPool]
  | record skipped bytes remaining passed accepted current =>
    refine ⟨_,s',c',db.setPool name b',?_,stands',at_',moves.heap,moves.filter,
      .inr ⟨skipped,bytes,rfl,remaining,passed,accepted,current,?_⟩⟩
    · rw [back,scanNext_at ran,setPool_setPool]
    · rw [getRecord_at,HeapFileScan.getRecord_spec moves.scanning current rfl]

-- insertRecord, on a file that other objects may have open as well.
theorem Stands.land_record (stands : db.Stands (shelf.withInsert name rel n)) (owned : shelf.Owned)
    (shows : shelf.Shows name first (before ++ [(n,d)])) (at_ : rel.At first n) (positive : bytes ≠ []) :
    ∃ result rel' db' recCnt' before' n' d', db.insertRecord name rel (.of bytes) = .ok (result,rel',db') ∧
      db'.Stands ((shelf.refill name (before' ++ [(n',d')]) recCnt').withInsert name rel' n') ∧ rel'.At first n' ∧
      Heap.Lands before n d bytes result before' n' d' ∧ (pageNos (before' ++ [(n',d')])).Nodup := by
  obtain ⟨file,found,rfl,pages⟩ := shows
  have pinned : shelf.withInsert name rel n = Function.update shelf name (some (file.pin rel.hdrDirtyFlag n true)) := by
    rw [Shelf.withInsert,Shelf.on,found]
    rfl
  rw [pinned] at stands
  obtain ⟨b,back,kept,stored⟩ := stands.find (Function.update_self ..)
  rw [show (file.pin rel.hdrDirtyFlag n true).heap = before ++ [(n,d)] from pages] at stored
  obtain ⟨named,own⟩ := owned name file found
  have own' : file.books.opened.Owned := own
  obtain ⟨result,rel',b',recCnt',before',n',d',ran,inserting,lands⟩ := InsertFileScan.insertRecord_lands own' positive
    ⟨kept,stored,at_.headerPage,at_.headerPageNo,at_.curPage,at_.curPageNo⟩
  refine ⟨result,rel',db.setPool name b',recCnt',before',n',d',?_,?_,
    ⟨inserting.headerPage,inserting.headerPageNo,inserting.curPage,inserting.curPageNo⟩,lands,inserting.stored.nodup⟩
  · rw [back,insertRecord_at ran,setPool_setPool]
  · have refilled := stands.put (b:=b') ((file.refill (before' ++ [(n',d')]) recCnt').pin rel'.hdrDirtyFlag n' true)
      (holds_setPool named ((own'.hold _ _).hold _ _) inserting.kept inserting.stored)
    rw [Function.update_idem] at refilled
    rw [Shelf.withInsert,Shelf.on,Shelf.refill,Shelf.on_same,found,Shelf.on,Function.update_idem]
    exact refilled

-- The destructors, with or without endScan before.
theorem Stands.close_scan (stands : db.Stands (shelf.withScan name s c)) (owned : shelf.Owned)
    (shows : shelf.Shows name first c.heap) (at_ : s.At first c) :
    ∃ db', db.deleteHeapFileScan name s = .ok db' ∧ db'.Stands shelf := by
  obtain ⟨file,found,pages,_,scans⟩ := stands.with_scan owned shows at_
  exact scans.delete found pages.symm

theorem Stands.finish_scan (stands : db.Stands (shelf.withScan name s c)) (owned : shelf.Owned)
    (shows : shelf.Shows name first c.heap) (at_ : s.At first c) :
    ∃ s1 db1 db', db.endScan name s = .ok (.ok,s1,db1) ∧ db1.deleteHeapFileScan name s1 = .ok db' ∧
      db'.Stands shelf := by
  obtain ⟨file,found,pages,_,scans⟩ := stands.with_scan owned shows at_
  exact scans.finish found pages.symm

theorem Stands.close_insert_object (stands : db.Stands (shelf.withInsert name rel n)) (owned : shelf.Owned)
    (shows : shelf.Shows name first (before ++ [(n,d)])) (at_ : rel.At first n) :
    ∃ db', db.deleteInsertFileScan name rel = .ok db' ∧ db'.Stands shelf := by
  obtain ⟨file,found,rfl,pages⟩ := shows
  have pinned : shelf.withInsert name rel n = Function.update shelf name
      (some (written file rel before n d file.recCnt)) := by
    rw [Shelf.withInsert,Shelf.on,found,written,← pages]
    rfl
  rw [pinned] at stands
  obtain ⟨b,_,kept,stored⟩ := stands.find (Function.update_self ..)
  obtain ⟨named,own⟩ := owned name file found
  obtain ⟨db',closed,stands'⟩ := Db.Writes.delete ⟨stands,
    ⟨b,kept,stored,at_.headerPage,at_.headerPageNo,at_.curPage,at_.curPageNo⟩,named,own⟩
  refine ⟨db',closed,?_⟩
  rw [← pages] at stands'
  rwa [← found,Function.update_eq_self] at stands'

end Db
end Minirel
