import Minirel.ScanRuns

namespace Minirel.Stage4
open ByteMemory

-- The heap file layer of Stage4, where it differs from the one of stage6. Objects and pages have
-- the same members; the destructors, startScan and endScan are the same.
namespace HeapFile

def construct (b : Pool) (h : HeapFile) : Except Abort (Status × HeapFile × Pool) := do
  match b.getFirstPage with
  | (.error status,b) => return (status,h,b)
  | (.ok pageNo,b) =>
    let h := {h with headerPageNo := pageNo}
    match b.readPage h.headerPageNo with
    | (.ok,b) =>
      let h := {h with headerPage := some h.headerPageNo, hdrDirtyFlag := false}
      let header ← b.deref h.headerPage
      let h := {h with curPageNo := FileHdrPage.firstPage header}
      match b.readPage h.curPageNo with
      | (.ok,b) => return (.ok,{h with curPage := some h.curPageNo, curDirtyFlag := false, curRec := nullRid},b)
      | (status,b) => return (status,h,b)
    | (status,b) => return (status,h,b)

end HeapFile

namespace InsertFileScan

-- The scan stays on the first page of the file.
def construct (b : Pool) (s : InsertFileScan) : Except Abort (Status × InsertFileScan × Pool) := do
  let (status,h,b) ← HeapFile.construct b s.toHeapFile
  return (status,⟨h⟩,b)

-- The current page gets a new page behind it, whatever its next page was, and is unpinned with the
-- flag it happens to have.
def linkNewPage (b : Pool) (s : InsertFileScan) : Except Abort (Except Status Unit × InsertFileScan × Pool) := do
  match b.allocPage with
  | (.error status,b) => return (.error status,s,b)
  | (.ok newPageNo,b) =>
    let newPage ← b.deref (some newPageNo)
    let b := b.assign (some newPageNo) (newPage.init newPageNo)
    let header ← b.deref s.headerPage
    let header := FileHdrPage.setLastPage header newPageNo
    let b := b.assign s.headerPage (FileHdrPage.setPageCnt header (FileHdrPage.pageCnt header + 1))
    let s : InsertFileScan := ⟨{s.toHeapFile with hdrDirtyFlag := true}⟩
    let page ← b.deref s.curPage
    let b := b.assign s.curPage (page.setNextPage newPageNo)
    match b.unPinPage s.curPageNo s.curDirtyFlag with
    | (.ok,b) => return (.ok (),⟨{s.toHeapFile with curPage := some newPageNo, curPageNo := newPageNo}⟩,b)
    | (status,b) => return (.error status,s,b)

-- do bookkeeping
def counted (b : Pool) (s : InsertFileScan) (rid : RID) : Except Abort (Except Status RID × InsertFileScan × Pool) := do
  let header ← b.deref s.headerPage
  let b := b.assign s.headerPage (FileHdrPage.setRecCnt header (FileHdrPage.recCnt header + 1))
  return (.ok rid,⟨{s.toHeapFile with hdrDirtyFlag := true, curDirtyFlag := true, curRec := rid}⟩,b)

-- The new page is pinned a second time; a record that does not fit leaves it so.
def insertOnNewPage (b : Pool) (s : InsertFileScan) (rec : Record) :
    Except Abort (Except Status RID × InsertFileScan × Pool) := do
  let (linked,s,b) ← linkNewPage b s
  match linked with
  | .error status => return (.error status,s,b)
  | .ok () =>
    match b.readPage s.curPageNo with
    | (.ok,b) =>
      let page ← b.deref s.curPage
      match page.insertRecord rec with
      | (.ok,some rid,page) =>
        let b := b.assign s.curPage (page.setNextPage (-1))
        match b.unPinPage s.curPageNo s.curDirtyFlag with
        | (.ok,b) => counted b s rid
        | (status,b) => return (.error status,s,b)
      | (status,_,_) => return (.error status,s,b)
    | (status,b) => return (.error status,s,b)

def insertOnCurrentPage (b : Pool) (s : InsertFileScan) (rec : Record) :
    Except Abort (Except Status RID × InsertFileScan × Pool) := do
  let page ← b.deref s.curPage
  match page.insertRecord rec with
  | (.ok,some rid,page) => counted (b.assign s.curPage page) s rid
  | _ => insertOnNewPage b s rec

def insertRecord (b : Pool) (s : InsertFileScan) (rec : Record) :
    Except Abort (Except Status RID × InsertFileScan × Pool) := do
  if rec.length % 2 ^ 32 > dataSize then return (.error .invalidRecLen,s,b)
  else if s.curPage = none then
    let header ← b.deref s.headerPage
    let s : InsertFileScan := ⟨{s.toHeapFile with curPageNo := FileHdrPage.lastPage header}⟩
    match b.readPage s.curPageNo with
    | (.ok,b) => insertOnCurrentPage b ⟨{s.toHeapFile with curPage := some s.curPageNo, curDirtyFlag := false}⟩ rec
    | (status,b) => return (.error status,s,b)
  else insertOnCurrentPage b s rec

end InsertFileScan

namespace HeapFileScan

def construct (b : Pool) (s : HeapFileScan) : Except Abort (Status × HeapFileScan × Pool) := do
  let (status,h,b) ← HeapFile.construct b s.toHeapFile
  return (status,{s with toHeapFile := h, filter := none},b)

-- while(pageStatus == NORECORDS)
def nextPages : Nat → Pool → HeapFileScan → Except Abort (Except Status Unit × HeapFileScan × Pool)
  | 0,_,_ => throw .diverges
  | turns+1,b,s => do
    let page ← b.deref s.curPage
    let nextPageNo := page.getNextPage
    if nextPageNo = -1 then return (.error .fileEof,s,b)
    match b.unPinPage s.curPageNo s.curDirtyFlag with
    | (.ok,b) =>
      let s := {s with curPageNo := nextPageNo, curDirtyFlag := false}
      match b.readPage s.curPageNo with
      | (.ok,b) =>
        let s := {s with curPage := some s.curPageNo}
        let page ← b.deref s.curPage
        match page.firstRecord with
        | .ok rid => return (.ok (),{s with curRec := rid},b)
        | .error _ => nextPages turns b s
      | (status,b) => return (.error status,s,b)
    | (status,b) => return (.error status,s,b)

def advance (b : Pool) (s : HeapFileScan) : Except Abort (Except Status Unit × HeapFileScan × Pool) := do
  let page ← b.deref s.curPage
  match page.nextRecord s.curRec with
  | .ok rid => return (.ok (),{s with curRec := rid},b)
  | .error _ => nextPages (HeapFileScan.pageTurns b) b s

-- while(true)
def nextRecords : Nat → Pool → HeapFileScan → Except Abort (Except Status RID × HeapFileScan × Pool)
  | 0,_,_ => throw .diverges
  | turns+1,b,s => do
    let (moved,s,b) ← advance b s
    match moved with
    | .error status => return (.error status,s,b)
    | .ok () =>
      let page ← b.deref s.curPage
      match page.getRecord s.curRec with
      | .error status => return (.error status,s,b)
      | .ok rec => if s.matchRec rec then return (.ok s.curRec,s,b) else nextRecords turns b s

def scanFirst (b : Pool) (s : HeapFileScan) : Except Abort (Except Status RID × HeapFileScan × Pool) := do
  let header ← b.deref s.headerPage
  let s := {s with curPageNo := FileHdrPage.firstPage header}
  if s.curPageNo = -1 then return (.error .fileEof,s,b)
  let s := {s with curDirtyFlag := false}
  match b.readPage s.curPageNo with
  | (.ok,b) =>
    let s := {s with curPage := some s.curPageNo}
    let page ← b.deref s.curPage
    match page.firstRecord with
    | .error _ => return (.error .fileEof,s,b)
    | .ok rid =>
      let s := {s with curRec := rid}
      match page.getRecord rid with
      | .error status => return (.error status,s,b)
      | .ok rec => if s.matchRec rec then return (.ok rid,s,b) else nextRecords (HeapFileScan.recordTurns b) b s
  | (status,b) => return (.error status,s,b)

def scanNext (b : Pool) (s : HeapFileScan) : Except Abort (Except Status RID × HeapFileScan × Pool) :=
  if s.curPage = none then scanFirst b s else nextRecords (HeapFileScan.recordTurns b) b s

-- A client that reads every record it is given.
def turn (b : Pool) (s : HeapFileScan) : Except Abort (Turn × HeapFileScan × Pool) := do
  let (result,s,b) ← scanNext b s
  match result with
  | .error status => return (.stopped status,s,b)
  | .ok rid => return (.record rid (← HeapFileScan.getRecord b s) none,s,b)

def turns (b : Pool) (s : HeapFileScan) : Nat → Except Abort (List Turn × HeapFileScan × Pool)
  | 0 => return ([],s,b)
  | n+1 => do
    let (seen,s,b) ← turns b s n
    let (now,s,b) ← turn b s
    return (seen ++ [now],s,b)

def session (b : Pool) (s : HeapFileScan) (n : Nat) : Except Abort (List Turn × Pool) := do
  let (_,b) := b.openFile
  let (_,s,b) ← construct b s
  let (_,s) := s.startScan 0 0 (some .string) none .eq
  let (seen,s,b) ← turns b s n
  return (seen,HeapFileScan.destroy b s)

end HeapFileScan
end Minirel.Stage4
