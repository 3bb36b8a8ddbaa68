import Minirel.Buf

namespace Minirel.Part3

-- unsigned int arithmetic on the address and the page number
def hash : Hash := fun htSize key => (((key.1 : Int) + key.2) % (2 ^ 32 : Nat)).toNat % htSize

def allocTurns (io : Faults) : Nat → Storage → Except Status Nat × Storage
  | 0,s => (.error .bufferExceeded,s)
  | turns+1,s =>
    let i := s.mgr.clockHand
    let d := s.mgr.bufTable i
    if ¬d.valid then (.ok i,s)
    else if d.refbit then
      allocTurns io turns {s with mgr := (s.mgr.setDesc i {d with refbit := false}).countAccess.advanceClock}
    else if d.pinCnt > 0 then allocTurns io turns {s with mgr := s.mgr.advanceClock}
    else if d.dirty then
      let (status,s) := s.writeFrame io i
      let s := {s with mgr := s.mgr.countWrite}
      if status ≠ .ok then (.error status,s)
      else (.ok i,{s with mgr := (s.mgr.dropEntry hash i).setDesc i d.clear})
    else (.ok i,{s with mgr := (s.mgr.dropEntry hash i).setDesc i d.clear})

def allocBuf (io : Faults) (s : Storage) : Except Status Nat × Storage := allocTurns io (2 * s.mgr.numBufs) s

-- for (i = 0; i < numBufs; i++) if (bufTable[i].frameNo == frame)
def findDesc (m : BufMgr) (frame : Nat) : Option Nat :=
  (List.range m.numBufs).find? fun i => (m.bufTable i).frameNo = frame

-- No frame found leaves the target NULL, and the source uses it all the same.
def readPage (io : Faults) (s : Storage) (file : FileId) (pageNo : Int) : Except Status Nat × Storage :=
  match s.mgr.hashTable.lookup hash file pageNo with
  | .error _ =>
    match allocBuf io s with
    | (.error status,s) => (.error status,s)
    | (.ok frame,s) =>
      let m := s.mgr.countRead
      match File.readPage (io file) (s.disk file) pageNo with
      | .error status => (.error status,{s with mgr := m})
      | .ok page =>
        let m := m.setPage frame page
        match findDesc m frame with
        | none => (.error .badBuffer,{s with mgr := m})
        | some target =>
          let m := m.setDesc target ((m.bufTable target).set file pageNo)
          let (status,table) := m.hashTable.insert hash file pageNo frame
          if status ≠ .ok then (.error status,{s with mgr := m.setTable table})
          else (.ok frame,{s with mgr := m.setTable table})
  | .ok frame =>
    match findDesc s.mgr frame with
    | none => (.error .badBuffer,s)
    | some target =>
      let d := s.mgr.bufTable target
      (.ok frame,{s with mgr := s.mgr.setDesc target {d with pinCnt := d.pinCnt + 1, refbit := true}})

def unPinPage (s : Storage) (file : FileId) (pageNo : Int) (dirty : Bool) : Status × Storage :=
  match s.mgr.hashTable.lookup hash file pageNo with
  | .error status => (status,s)
  | .ok frame =>
    let d := s.mgr.bufTable frame
    if d.pinCnt = 0 then (.pageNotPinned,s)
    else
      let d := {d with pinCnt := d.pinCnt - 1}
      let d := if dirty then {d with dirty := true} else d
      (.ok,{s with mgr := s.mgr.setDesc frame d})

def allocPage (io : Faults) (s : Storage) (file : FileId) : Except Status (Int × Nat) × Storage :=
  let (allocated,unixFile) := File.allocatePage (io file) (s.disk file)
  let s := {s with disk := Function.update s.disk file unixFile}
  match allocated with
  | .error status => (.error status,s)
  | .ok pageNo =>
    match allocBuf io s with
    | (.error status,s) => (.error status,s)
    | (.ok frame,s) =>
      let m := s.mgr.setDesc frame ((s.mgr.bufTable frame).set file pageNo)
      let (status,table) := m.hashTable.insert hash file pageNo frame
      if status ≠ .ok then (.error status,{s with mgr := m.setTable table})
      else (.ok (pageNo,frame),{s with mgr := m.setTable table})

def flushFile (io : Faults) (s : Storage) (file : FileId) : Status × Storage := s.flushFile hash io file

end Minirel.Part3
