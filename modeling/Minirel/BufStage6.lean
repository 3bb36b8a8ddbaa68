import Minirel.Buf

namespace Minirel.Stage6

-- int arithmetic: ((tmp + pageNo) % HTSIZE + HTSIZE) % HTSIZE
def hash : Hash := fun htSize key =>
  let sum := Int.bmod ((key.1 : Int) + key.2) (2 ^ 32)
  ((sum.tmod htSize + htSize).tmod htSize).toNat

-- The clock loop of allocBuf: where the hand stops, the turns it had left, and
-- whether it stops at a page it may evict.
def sweep : Nat → BufMgr → BufMgr × Nat × Bool
  | 0,m => (m,0,false)
  | turns+1,m =>
    let m := m.advanceClock
    let d := m.bufTable m.clockHand
    if ¬d.valid then (m,turns,false)
    else if ¬d.refbit then
      if d.pinCnt = 0 then (m,turns,true) else sweep turns m
    else sweep turns (m.countAccess.setDesc m.clockHand {d with refbit := false})

def allocBuf (io : Faults) (s : Storage) : Except Status Nat × Storage :=
  let (m,left,found) := sweep (2 * s.mgr.numBufs) s.mgr
  let m := if found then m.dropEntry hash m.clockHand else m
  if ¬found ∧ left = 0 then (.error .bufferExceeded,{s with mgr := m})
  else if (m.bufTable m.clockHand).dirty then
    let (status,s) := Storage.writeFrame io {s with mgr := m.countWrite} m.clockHand
    if status ≠ .ok then (.error status,s) else (.ok m.clockHand,s)
  else (.ok m.clockHand,{s with mgr := m})

def readPage (io : Faults) (s : Storage) (file : FileId) (pageNo : Int) : Except Status Nat × Storage :=
  match s.mgr.hashTable.lookup hash file pageNo with
  | .ok frame =>
    let d := s.mgr.bufTable frame
    (.ok frame,{s with mgr := s.mgr.setDesc frame {d with refbit := true, pinCnt := d.pinCnt + 1}})
  | .error _ =>
    match allocBuf io s with
    | (.error status,s) => (.error status,s)
    | (.ok frame,s) =>
      let m := s.mgr.countRead
      match File.readPage (io file) (s.disk file) pageNo with
      | .error status => (.error status,{s with mgr := m})
      | .ok page =>
        let m := m.setPage frame page
        let m := m.setDesc frame ((m.bufTable frame).set file pageNo)
        let (status,table) := m.hashTable.insert hash file pageNo frame
        if status ≠ .ok then (.error status,{s with mgr := m.setTable table})
        else (.ok frame,{s with mgr := m.setTable table})

-- The dirty flag is set before the pin count is looked at.
def unPinPage (s : Storage) (file : FileId) (pageNo : Int) (dirty : Bool) : Status × Storage :=
  match s.mgr.hashTable.lookup hash file pageNo with
  | .error status => (status,s)
  | .ok frame =>
    let d := s.mgr.bufTable frame
    let d := if dirty then {d with dirty := dirty} else d
    if d.pinCnt = 0 then (.pageNotPinned,{s with mgr := s.mgr.setDesc frame d})
    else (.ok,{s with mgr := s.mgr.setDesc frame {d with pinCnt := d.pinCnt - 1}})

def allocPage (io : Faults) (s : Storage) (file : FileId) : Except Status (Int × Nat) × Storage :=
  let (allocated,unixFile) := File.allocatePage (io file) (s.disk file)
  let s := {s with disk := Function.update s.disk file unixFile}
  match allocated with
  | .error status => (.error status,s)
  | .ok pageNo =>
    match allocBuf io s with
    | (.error status,s) => (.error status,s)
    | (.ok frame,s) =>
      let m := s.mgr.setDesc frame ((s.mgr.bufTable frame).set file pageNo)
      let (status,table) := m.hashTable.insert hash file pageNo frame
      if status ≠ .ok then (.error status,{s with mgr := m.setTable table})
      else (.ok (pageNo,frame),{s with mgr := m.setTable table})

def flushFile (io : Faults) (s : Storage) (file : FileId) : Status × Storage := s.flushFile hash io file

-- The pool gives the page up before the file is asked; what remove returns is not looked at.
def disposePage (io : Faults) (s : Storage) (file : FileId) (pageNo : Int) : Status × Storage :=
  let m := match s.mgr.hashTable.lookup hash file pageNo with
    | .ok frame => s.mgr.setDesc frame (s.mgr.bufTable frame).clear
    | .error _ => s.mgr
  let m := m.setTable (m.hashTable.remove hash file pageNo).2
  let (status,unixFile) := File.disposePage (io file) (s.disk file) pageNo
  (status,⟨m,Function.update s.disk file unixFile⟩)

end Minirel.Stage6
