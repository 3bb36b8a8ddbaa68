import Minirel.Pool
import Minirel.Matching

namespace Minirel
open ByteMemory

abbrev Name := List UInt8

def maxNameSize : Nat := 50

-- FileHdrPage lies over the header page: fileName[50], two bytes of padding, four ints.
namespace FileHdrPage

def firstPage (p : Page) : Int := word p 4 52
def lastPage (p : Page) : Int := word p 4 56
def pageCnt (p : Page) : Int := word p 4 60
def recCnt (p : Page) : Int := word p 4 64
def setFirstPage (p : Page) (v : Int) : Page := setWord p 4 52 v
def setLastPage (p : Page) (v : Int) : Page := setWord p 4 56 v
def setPageCnt (p : Page) (v : Int) : Page := setWord p 4 60 v
def setRecCnt (p : Page) (v : Int) : Page := setWord p 4 64 v

-- strncpy(hdrPage->fileName, fileName.c_str(), MAXNAMESIZE)
def setFileName (p : Page) (name : Name) : Page := store p 0 (bytesAt (name.takeWhile (· ≠ 0)) maxNameSize)

end FileHdrPage

-- createHeapFile once the file has been created and opened for the first time.
def Pool.createHeapFile (b : Pool) (fileName : Name) : Except Abort (Status × Pool) := do
  match b.allocPage with
  | (.error status,b) => return (status,b)
  | (.ok hdrPageNo,b) =>
    let b := b.assign (some hdrPageNo) (FileHdrPage.setFileName (← b.deref (some hdrPageNo)) fileName)
    match b.allocPage with
    | (.error status,b) => return (status,b)
    | (.ok newPageNo,b) =>
      let newPage ← b.deref (some newPageNo)
      let b := b.assign (some newPageNo) ((newPage.init newPageNo).setNextPage (-1))
      let hdrPage ← b.deref (some hdrPageNo)
      let hdrPage := FileHdrPage.setPageCnt (FileHdrPage.setRecCnt hdrPage 0) 1
      let hdrPage := FileHdrPage.setFirstPage (FileHdrPage.setLastPage hdrPage newPageNo) newPageNo
      let b := b.assign (some hdrPageNo) hdrPage
      match b.unPinPage newPageNo true with
      | (.ok,b) =>
        match b.unPinPage hdrPageNo true with
        | (.ok,b) => return b.closeFile
        | (status,b) => return (status,b)
      | (status,b) => return (status,b)

structure HeapFile where
  headerPage : Ptr
  headerPageNo : Int
  hdrDirtyFlag : Bool
  curPage : Ptr
  curPageNo : Int
  curDirtyFlag : Bool
  curRec : RID
  deriving DecidableEq,Repr

namespace HeapFile

-- The constructor once the file is open; h has what the members held before. A failing step is
-- reported on cerr only: returnStatus is OK at the end.
def construct (b : Pool) (h : HeapFile) : Except Abort (Status × HeapFile × Pool) := do
  let (first,b) := b.getFirstPage
  let h := match first with
    | .ok pageNo => {h with headerPageNo := pageNo}
    | .error _ => h
  match b.readPage h.headerPageNo with
  | (.ok,b) =>
    let h := {h with headerPage := some h.headerPageNo, hdrDirtyFlag := false}
    let header ← b.deref h.headerPage
    let h := {h with curPageNo := FileHdrPage.firstPage header}
    match b.readPage h.curPageNo with
    | (.ok,b) => return (.ok,{h with curPage := some h.curPageNo, curDirtyFlag := false, curRec := nullRid},b)
    | (_,b) => return (.ok,{h with curDirtyFlag := false, curRec := nullRid},b)
  -- the pointer taken for the header page was never set
  | (_,_) => throw .undefined

def destroy (b : Pool) (h : HeapFile) : Pool :=
  let b := match h.curPage with
    | some _ => (b.unPinPage h.curPageNo h.curDirtyFlag).2
    | none => b
  let b := (b.unPinPage h.headerPageNo h.hdrDirtyFlag).2
  b.closeFile.2

def getRecCnt (b : Pool) (h : HeapFile) : Except Abort Int := do
  let header ← b.deref h.headerPage
  return FileHdrPage.recCnt header

-- The part of getRecord that reads another page than the pinned one.
def readRecord (b : Pool) (h : HeapFile) (rid : RID) : Except Abort (Except Status Record × HeapFile × Pool) := do
  match b.readPage rid.pageNo with
  | (.ok,b) =>
    let h := {h with curPage := some rid.pageNo, curPageNo := rid.pageNo, curDirtyFlag := false, curRec := rid}
    let page ← b.deref h.curPage
    return (page.getRecord rid,h,b)
  | (status,b) => return (.error status,h,b)

def getRecord (b : Pool) (h : HeapFile) (rid : RID) : Except Abort (Except Status Record × HeapFile × Pool) := do
  if h.curPage = none then readRecord b h rid
  else if rid.pageNo = h.curPageNo then
    let page ← b.deref h.curPage
    return (page.getRecord rid,{h with curRec := rid},b)
  else
    match b.unPinPage h.curPageNo h.curDirtyFlag with
    | (.ok,b) => readRecord b h rid
    | (status,b) => return (.error status,{h with curPage := none, curPageNo := 0, curDirtyFlag := false},b)

end HeapFile

-- filter is NULL until startScan is given a condition.
structure HeapFileScan extends HeapFile where
  filter : Option Condition
  markedPageNo : Int
  markedRec : RID
  deriving DecidableEq,Repr

namespace HeapFileScan

def construct (b : Pool) (s : HeapFileScan) : Except Abort (Status × HeapFileScan × Pool) := do
  let (status,h,b) ← HeapFile.construct b s.toHeapFile
  return (status,{s with toHeapFile := h, filter := none},b)

-- An operator is one of the six by its type; type_ is none for a code that no Datatype has.
def startScan (s : HeapFileScan) (offset length : Int) (type : Option Datatype) (filter : Option (List UInt8))
    (op : Operator) : Status × HeapFileScan :=
  match filter with
  | none => (.ok,{s with filter := none})
  | some filter =>
    match type with
    | none => (.badScanParm,s)
    | some type =>
      if (offset < 0 ∨ length < 1) ∨ (type = .integer ∧ length ≠ 4 ∨ type = .float ∧ length ≠ 4) then (.badScanParm,s)
      else (.ok,{s with filter := some ⟨offset,length,type,filter,op⟩})

def endScan (b : Pool) (s : HeapFileScan) : Status × HeapFileScan × Pool :=
  match s.curPage with
  | some _ =>
    let (status,b) := b.unPinPage s.curPageNo s.curDirtyFlag
    (status,{s with curPage := none, curPageNo := 0, curDirtyFlag := false},b)
  | none => (.ok,s,b)

def destroy (b : Pool) (s : HeapFileScan) : Pool :=
  let (_,s,b) := s.endScan b
  s.toHeapFile.destroy b

def markScan (s : HeapFileScan) : Status × HeapFileScan :=
  (.ok,{s with markedPageNo := s.curPageNo, markedRec := s.curRec})

def resetScan (b : Pool) (s : HeapFileScan) : Status × HeapFileScan × Pool :=
  if s.markedPageNo ≠ s.curPageNo then
    let unpinned := match s.curPage with
      | some _ => b.unPinPage s.curPageNo s.curDirtyFlag
      | none => (.ok,b)
    if unpinned.1 ≠ .ok then (unpinned.1,s,unpinned.2)
    else
      let s := {s with curPageNo := s.markedPageNo, curRec := s.markedRec}
      match unpinned.2.readPage s.curPageNo with
      | (.ok,b) => (.ok,{s with curPage := some s.curPageNo, curDirtyFlag := false},b)
      | (status,b) => (status,s,b)
  else (.ok,{s with curRec := s.markedRec},b)

def matchRec (s : HeapFileScan) (rec : Record) : Bool :=
  match s.filter with
  | none => true
  | some c => c.matchRec rec

-- while ((status == ENDOFPAGE) || (status == NORECORDS)): goes to the first record of the next
-- page that has one. An error is what scanNext returns at once.
def nextPages : Nat → Pool → HeapFileScan → Except Abort (Except Status Unit × HeapFileScan × Pool)
  | 0,_,_ => throw .diverges
  | turns+1,b,s => do
    let page ← b.deref s.curPage
    let nextPageNo := page.getNextPage
    if nextPageNo = -1 then return (.error .fileEof,s,b)
    match b.unPinPage s.curPageNo s.curDirtyFlag with
    | (.ok,b) =>
      let s := {s with curPage := none, curPageNo := nextPageNo, curDirtyFlag := false}
      match b.readPage s.curPageNo with
      | (.ok,b) =>
        let s := {s with curPage := some s.curPageNo}
        let page ← b.deref s.curPage
        match page.firstRecord with
        | .ok rid => return (.ok (),{s with curRec := rid},b)
        | .error _ => nextPages turns b s
      | (status,b) => return (.error status,s,b)
    | (status,b) => return (.error status,{s with curPage := none, curPageNo := -1},b)

-- A file of n pages has no more than n pages to go to and fewer than 1024 n records to look at; a
-- scan that takes more turns is back where it was before.
def pageTurns (b : Pool) : Nat := b.file.length
def recordTurns (b : Pool) : Nat := pageSize * b.file.length

def advance (b : Pool) (s : HeapFileScan) : Except Abort (Except Status Unit × HeapFileScan × Pool) := do
  let page ← b.deref s.curPage
  match page.nextRecord s.curRec with
  | .ok rid => return (.ok (),{s with curRec := rid},b)
  | .error _ => nextPages (pageTurns b) b s

-- for(;;)
def nextRecords : Nat → Pool → HeapFileScan → Except Abort (Except Status RID × HeapFileScan × Pool)
  | 0,_,_ => throw .diverges
  | turns+1,b,s => do
    let (moved,s,b) ← advance b s
    match moved with
    | .error status => return (.error status,s,b)
    | .ok () =>
      let page ← b.deref s.curPage
      match page.getRecord s.curRec with
      | .error status => return (.error status,s,b)
      | .ok rec => if s.matchRec rec then return (.ok s.curRec,s,b) else nextRecords turns b s

-- The first scanNext after the page was given back: curPage is NULL. On a page without records
-- the source leaves curRec unset, and nothing reads it while curPage is NULL.
def scanFirst (b : Pool) (s : HeapFileScan) : Except Abort (Except Status RID × HeapFileScan × Pool) := do
  let header ← b.deref s.headerPage
  let s := {s with curPageNo := FileHdrPage.firstPage header}
  if s.curPageNo = -1 then return (.error .fileEof,s,b)
  let (status,b) := b.readPage s.curPageNo
  let s := {s with curDirtyFlag := false, curRec := nullRid}
  if status ≠ .ok then return (.error status,s,b)
  let s := {s with curPage := some s.curPageNo}
  let page ← b.deref s.curPage
  match page.firstRecord with
  | .error _ =>
    match b.unPinPage s.curPageNo s.curDirtyFlag with
    | (.ok,b) => return (.error .fileEof,{s with curPageNo := -1, curPage := none},b)
    | (status,b) => return (.error status,s,b)
  | .ok rid =>
    let s := {s with curRec := rid}
    match page.getRecord rid with
    | .error status => return (.error status,s,b)
    | .ok rec => if s.matchRec rec then return (.ok rid,s,b) else nextRecords (recordTurns b) b s

def scanNext (b : Pool) (s : HeapFileScan) : Except Abort (Except Status RID × HeapFileScan × Pool) :=
  if s.curPageNo < 0 then return (.error .fileEof,s,b)
  else if s.curPage = none then scanFirst b s
  else nextRecords (recordTurns b) b s

def getRecord (b : Pool) (s : HeapFileScan) : Except Abort (Except Status Record) := do
  let page ← b.deref s.curPage
  return page.getRecord s.curRec

def deleteRecord (b : Pool) (s : HeapFileScan) : Except Abort (Status × HeapFileScan × Pool) := do
  let page ← b.deref s.curPage
  let (status,page) := page.deleteRecord s.curRec
  let b := b.assign s.curPage page
  let header ← b.deref s.headerPage
  let b := b.assign s.headerPage (FileHdrPage.setRecCnt header (FileHdrPage.recCnt header - 1))
  return (status,{s with curDirtyFlag := true, hdrDirtyFlag := true},b)

def markDirty (s : HeapFileScan) : Status × HeapFileScan := (.ok,{s with curDirtyFlag := true})

end HeapFileScan

structure InsertFileScan extends HeapFile where
  deriving DecidableEq,Repr

namespace InsertFileScan

def construct (b : Pool) (s : InsertFileScan) : Except Abort (Status × InsertFileScan × Pool) := do
  let (status,h,b) ← HeapFile.construct b s.toHeapFile
  let header ← b.deref h.headerPage
  if h.curPage ≠ none ∧ h.curPageNo ≠ FileHdrPage.lastPage header then
    let (_,b) := b.unPinPage h.curPageNo h.curDirtyFlag
    let h := {h with curPageNo := FileHdrPage.lastPage header, curDirtyFlag := false}
    match b.readPage h.curPageNo with
    | (.ok,b) => return (.ok,⟨{h with curPage := some h.curPageNo}⟩,b)
    | (failed,b) => return (failed,⟨h⟩,b)
  else return (status,⟨h⟩,b)

def destroy (b : Pool) (s : InsertFileScan) : Pool :=
  match s.curPage with
  | some _ =>
    let b := (b.unPinPage s.curPageNo true).2
    {s.toHeapFile with curPage := none, curPageNo := 0}.destroy b
  | none => s.toHeapFile.destroy b

-- headerPage->recCnt++ and the flags after a record has gone onto the current page.
def counted (b : Pool) (s : InsertFileScan) : Except Abort (InsertFileScan × Pool) := do
  let header ← b.deref s.headerPage
  let b := b.assign s.headerPage (FileHdrPage.setRecCnt header (FileHdrPage.recCnt header + 1))
  return (⟨{s.toHeapFile with hdrDirtyFlag := true, curDirtyFlag := true}⟩,b)

-- The current page was full: links a new page behind it and makes that the current page.
def linkNewPage (b : Pool) (s : InsertFileScan) : Except Abort (Except Status Unit × InsertFileScan × Pool) := do
  match b.allocPage with
  | (.error status,b) => return (.error status,s,b)
  | (.ok newPageNo,b) =>
    let newPage ← b.deref (some newPageNo)
    let b := b.assign (some newPageNo) ((newPage.init newPageNo).setNextPage (-1))
    let header ← b.deref s.headerPage
    let header := FileHdrPage.setLastPage header newPageNo
    let b := b.assign s.headerPage (FileHdrPage.setPageCnt header (FileHdrPage.pageCnt header + 1))
    let s : InsertFileScan := ⟨{s.toHeapFile with hdrDirtyFlag := true}⟩
    let page ← b.deref s.curPage
    let b := b.assign s.curPage (page.setNextPage newPageNo)
    match b.unPinPage s.curPageNo true with
    | (.ok,b) => return (.ok (),⟨{s.toHeapFile with curPage := some newPageNo, curPageNo := newPageNo}⟩,b)
    | (status,b) =>
      let (_,b) := b.unPinPage newPageNo true
      return (.error status,⟨{s.toHeapFile with curPage := none, curPageNo := -1, curDirtyFlag := false}⟩,b)

def insertOnNewPage (b : Pool) (s : InsertFileScan) (rec : Record) :
    Except Abort (Except Status RID × InsertFileScan × Pool) := do
  let (linked,s,b) ← linkNewPage b s
  match linked with
  | .error status => return (.error status,s,b)
  | .ok () =>
    let page ← b.deref s.curPage
    match page.insertRecord rec with
    | (.ok,some rid,page) =>
      let (s,b) ← counted (b.assign s.curPage page) s
      return (.ok rid,s,b)
    | (status,_,_) => return (.error status,s,b)

def insertOnCurrentPage (b : Pool) (s : InsertFileScan) (rec : Record) :
    Except Abort (Except Status RID × InsertFileScan × Pool) := do
  let page ← b.deref s.curPage
  match page.insertRecord rec with
  | (.ok,some rid,page) =>
    let (s,b) ← counted (b.assign s.curPage page) s
    return (.ok rid,s,b)
  | _ => insertOnNewPage b s rec

-- (unsigned int) rec.length > PAGESIZE-DPFIXED
def insertRecord (b : Pool) (s : InsertFileScan) (rec : Record) :
    Except Abort (Except Status RID × InsertFileScan × Pool) := do
  if rec.length % 2 ^ 32 > dataSize then return (.error .invalidRecLen,s,b)
  else if s.curPage = none then
    let header ← b.deref s.headerPage
    let s : InsertFileScan := ⟨{s.toHeapFile with curPageNo := FileHdrPage.lastPage header}⟩
    match b.readPage s.curPageNo with
    | (.ok,b) => insertOnCurrentPage b ⟨{s.toHeapFile with curPage := some s.curPageNo}⟩ rec
    | (status,b) => return (.error status,s,b)
  else insertOnCurrentPage b s rec

end InsertFileScan
end Minirel
