import Minirel.File
import Minirel.BucketTable

namespace Minirel
open ByteMemory

-- The address of an open File object.
abbrev FileId := Nat
abbrev Disk := FileId → UnixFile
abbrev Faults := FileId → Io

-- BufHashTbl::hash for a table size; the two releases differ in it.
abbrev Hash := Nat → FileId × Int → Nat

structure BufHashTbl where
  htSize : Nat
  ht : BucketTable.Table (FileId × Int) Nat

namespace BufHashTbl

def init (htSize : Nat) : BufHashTbl := ⟨htSize,fun _ => []⟩

def insert (hash : Hash) (t : BufHashTbl) (file : FileId) (pageNo : Int) (frameNo : Nat) : Status × BufHashTbl :=
  match BucketTable.insert (hash t.htSize) t.ht (file,pageNo) frameNo with
  | some ht => (.ok,{t with ht := ht})
  | none => (.hashTblError,t)

def lookup (hash : Hash) (t : BufHashTbl) (file : FileId) (pageNo : Int) : Except Status Nat :=
  match BucketTable.lookup (hash t.htSize) t.ht (file,pageNo) with
  | some frameNo => .ok frameNo
  | none => .error .hashNotFound

def remove (hash : Hash) (t : BufHashTbl) (file : FileId) (pageNo : Int) : Status × BufHashTbl :=
  match BucketTable.remove (hash t.htSize) t.ht (file,pageNo) with
  | some ht => (.ok,{t with ht := ht})
  | none => (.hashTblError,t)

end BufHashTbl

structure BufDesc where
  file : Option FileId
  pageNo : Int
  frameNo : Nat
  pinCnt : Int
  dirty : Bool
  valid : Bool
  refbit : Bool
  deriving DecidableEq,Repr

def BufDesc.clear (d : BufDesc) : BufDesc :=
  {d with pinCnt := 0, file := none, pageNo := -1, dirty := false, valid := false}

def BufDesc.set (d : BufDesc) (file : FileId) (pageNo : Int) : BufDesc :=
  {d with file := some file, pageNo := pageNo, pinCnt := 1, dirty := false, valid := true, refbit := true}

structure BufStats where
  accesses : Int
  diskreads : Int
  diskwrites : Int
  deriving DecidableEq,Repr

structure BufMgr where
  clockHand : Nat
  numBufs : Nat
  hashTable : BufHashTbl
  bufTable : Nat → BufDesc
  bufStats : BufStats
  bufPool : Nat → Page

namespace BufMgr

-- (int) (bufs * 1.2) is the exact quotient: no multiple of 1.2 lies close below an integer.
def init (bufs : Nat) : BufMgr where
  clockHand := bufs - 1
  numBufs := bufs
  hashTable := .init (bufs * 12 / 10 * 2 / 2 + 1)
  bufTable := fun i => ⟨none,0,i,0,false,false,false⟩
  bufStats := ⟨0,0,0⟩
  bufPool := fun _ => zero 1024

def advanceClock (m : BufMgr) : BufMgr := {m with clockHand := (m.clockHand + 1) % m.numBufs}

def setDesc (m : BufMgr) (i : Nat) (d : BufDesc) : BufMgr := {m with bufTable := Function.update m.bufTable i d}
def setPage (m : BufMgr) (i : Nat) (page : Page) : BufMgr := {m with bufPool := Function.update m.bufPool i page}
def setTable (m : BufMgr) (t : BufHashTbl) : BufMgr := {m with hashTable := t}

def countAccess (m : BufMgr) : BufMgr := {m with bufStats := {m.bufStats with accesses := m.bufStats.accesses + 1}}
def countRead (m : BufMgr) : BufMgr := {m with bufStats := {m.bufStats with diskreads := m.bufStats.diskreads + 1}}
def countWrite (m : BufMgr) : BufMgr := {m with bufStats := {m.bufStats with diskwrites := m.bufStats.diskwrites + 1}}

theorem setDesc_same (m : BufMgr) (i : Nat) (d : BufDesc) : (m.setDesc i d).bufTable i = d := Function.update_self ..
theorem setDesc_other (m : BufMgr) {i j : Nat} (d : BufDesc) (other : j ≠ i) :
    (m.setDesc i d).bufTable j = m.bufTable j :=
  Function.update_of_ne other ..
theorem setPage_same (m : BufMgr) (i : Nat) (page : Page) : (m.setPage i page).bufPool i = page :=
    Function.update_self ..
theorem setPage_other (m : BufMgr) {i j : Nat} (page : Page) (other : j ≠ i) :
    (m.setPage i page).bufPool j = m.bufPool j :=
  Function.update_of_ne other ..

-- hashTable->remove(bufTable[i].file, bufTable[i].pageNo); no entry has a NULL file.
def dropEntry (hash : Hash) (m : BufMgr) (i : Nat) : BufMgr :=
  match (m.bufTable i).file with
  | some file => m.setTable (m.hashTable.remove hash file (m.bufTable i).pageNo).2
  | none => m

end BufMgr

structure Storage where
  mgr : BufMgr
  disk : Disk

namespace Storage

-- bufTable[i].file->writePage(bufTable[i].pageNo, &bufPool[i]); it is called on dirty frames
-- only, and these have a file.
def writeFrame (io : Faults) (s : Storage) (i : Nat) : Status × Storage :=
  match (s.mgr.bufTable i).file with
  | some file =>
    let result := File.writePage (io file) (s.disk file) (s.mgr.bufTable i).pageNo (s.mgr.bufPool i)
    (result.1,{s with disk := Function.update s.disk file result.2})
  | none => (.badFilePtr,s)

def flushFrames (hash : Hash) (io : Faults) (file : FileId) : Nat → Nat → Storage → Status × Storage
  | 0,_,s => (.ok,s)
  | turns+1,i,s =>
    let d := s.mgr.bufTable i
    if d.valid ∧ d.file = some file then
      if d.pinCnt > 0 then (.pagePinned,s)
      else
        let written := if d.dirty then s.writeFrame io i else (.ok,s)
        if written.1 ≠ .ok then written
        else
          let m := written.2.mgr.setTable (written.2.mgr.hashTable.remove hash file d.pageNo).2
          let m := m.setDesc i {d with dirty := false, file := none, pageNo := -1, valid := false}
          flushFrames hash io file turns (i+1) {written.2 with mgr := m}
    else if ¬d.valid ∧ d.file = some file then (.badBuffer,s)
    else flushFrames hash io file turns (i+1) s

def flushFile (hash : Hash) (io : Faults) (s : Storage) (file : FileId) : Status × Storage :=
  flushFrames hash io file s.mgr.numBufs 0 s

-- The writes of the destructor; it ignores what they return.
def closeFrames (io : Faults) : Nat → Storage → Storage
  | 0,s => s
  | turns+1,s =>
    let s := closeFrames io turns s
    let d := s.mgr.bufTable turns
    if d.valid ∧ d.dirty then (s.writeFrame io turns).2 else s

def close (io : Faults) (s : Storage) : Storage := closeFrames io s.mgr.numBufs s

end Storage
end Minirel
