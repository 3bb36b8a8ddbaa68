import Minirel.ByteMemory

namespace Minirel
open ByteMemory

inductive Status where
  | ok
  | badFilePtr | badFile | fileTabFull | fileOpen | fileNotOpen | unixErr | badPagePtr | badPageNo | fileExists
  | hashTblError | hashNotFound | bufferExceeded | pageNotPinned | badBuffer | pagePinned
  | noSpace | noRecords | endOfPage | invalidSlotNo | invalidRecLen
  | badRid | badRecPtr | badScanParm | badScanId | scanTabFull | fileEof | fileHdrFull
  | badSortParm | insufMem
  | badCatParm | relNotFound | attrNotFound | nameTooLong | duplAttr | relExists | attrTooLong
  | attrTypeMismatch | tmpResExists
  deriving DecidableEq,Repr

structure RID where
  pageNo : Int
  slotNo : Int
  deriving DecidableEq,Repr

def nullRid : RID := ⟨-1,-1⟩

-- A C record is a buffer and a length; only the first `length` bytes count.
structure Record where
  data : List UInt8
  length : Int
  deriving DecidableEq,Repr

def Record.of (bytes : List UInt8) : Record := ⟨bytes,bytes.length⟩

def pageSize : Nat := 1024
def dpFixed : Nat := 20
def slotSize : Nat := 4
def dataSize : Nat := pageSize - dpFixed

-- The page is its 1024 raw bytes: data[1004], slot[0] at 1004, the four shorts
-- slotCnt, freePtr, freeSpace, dummy from 1008, then nextPage and curPage.
-- slot[i] for i < 0 lies inside data[], and slot[1] lies on slotCnt and freePtr.
abbrev Page := Block 1024

namespace Page

def slotCnt (p : Page) : Int := word p 2 1008
def freePtr (p : Page) : Int := word p 2 1010
def freeSpace (p : Page) : Int := word p 2 1012
def nextPage (p : Page) : Int := word p 4 1016
def curPage (p : Page) : Int := word p 4 1020
def slotOffset (p : Page) (i : Int) : Int := word p 2 (1004 + 4 * i)
def slotLength (p : Page) (i : Int) : Int := word p 2 (1006 + 4 * i)

def setSlotCnt (p : Page) (v : Int) : Page := setWord p 2 1008 v
def setFreePtr (p : Page) (v : Int) : Page := setWord p 2 1010 v
def setFreeSpace (p : Page) (v : Int) : Page := setWord p 2 1012 v
def setNextPage (p : Page) (pageNo : Int) : Page := setWord p 4 1016 pageNo
def setCurPage (p : Page) (v : Int) : Page := setWord p 4 1020 v
def setSlotOffset (p : Page) (i v : Int) : Page := setWord p 2 (1004 + 4 * i) v
def setSlotLength (p : Page) (i v : Int) : Page := setWord p 2 (1006 + 4 * i) v

-- memcpy and bcopy within the page; data[] starts at its first byte.
def copyOut (p : Page) (offset : Int) (count : Nat) : List UInt8 := load p offset count
def copyIn (p : Page) (offset : Int) (bytes : List UInt8) : Page := store p offset bytes

def getNextPage (p : Page) : Int := p.nextPage

def init (p : Page) (pageNo : Int) : Page :=
  ((((p.setNextPage (-1)).setSlotCnt 0).setCurPage pageNo).setFreePtr 0).setFreeSpace dataSize

-- while (i > slotCnt) if (slot[i].length == -1) break; else i--;
-- The counter is the number of turns the loop bound still allows.
def findFree (p : Page) : Nat → Int → Int
  | 0,i => i
  | turns+1,i => if p.slotLength i = -1 then i else findFree p turns (i-1)

def insertRecord (p : Page) (rec : Record) : Status × Option RID × Page :=
  let spaceNeeded := rec.length + slotSize
  if spaceNeeded > p.freeSpace then (.noSpace,none,p)
  else
    let i := p.findFree (-p.slotCnt).toNat 0
    let q :=
      if i = p.slotCnt then (p.setFreeSpace (p.freeSpace - spaceNeeded)).setSlotCnt (p.slotCnt - 1)
      else p.setFreeSpace (p.freeSpace - rec.length)
    let q := (q.setSlotOffset i q.freePtr).setSlotLength i rec.length
    let q := q.copyIn q.freePtr (rec.data.take rec.length.toNat)
    let q := q.setFreePtr (q.freePtr + rec.length)
    (.ok,some ⟨q.curPage,-i⟩,q)

-- for (i = 0; i > slotCnt; i--): the turns so far have handled slots 0, -1, ...
def shiftOffsets (slotNo recLen : Int) : Nat → Page → Page
  | 0,p => p
  | turns+1,p =>
    let q := shiftOffsets slotNo recLen turns p
    let i := -(turns : Int)
    if q.slotLength i ≥ 0 ∧ q.slotOffset i > q.slotOffset slotNo then
      q.setSlotOffset i (q.slotOffset i - recLen)
    else q

-- do { slotCnt++; freeSpace += sizeof(slot_t); }
-- while (slotCnt < 0 && slot[slotCnt + 1].length == -1);
def popSlots : Nat → Page → Page
  | 0,p => (p.setSlotCnt (p.slotCnt + 1)).setFreeSpace (p.freeSpace + slotSize)
  | turns+1,p =>
    let q := (p.setSlotCnt (p.slotCnt + 1)).setFreeSpace (p.freeSpace + slotSize)
    if q.slotCnt < 0 ∧ q.slotLength (q.slotCnt + 1) = -1 then popSlots turns q else q

def deleteRecord (p : Page) (rid : RID) : Status × Page :=
  let slotNo := -rid.slotNo
  if slotNo > p.slotCnt ∧ p.slotLength slotNo > 0 then
    let offset := p.slotOffset slotNo
    let recLen := p.slotLength slotNo
    let nextOffset := offset + recLen
    let cnt := p.freePtr - nextOffset
    let q := p.copyIn offset (p.copyOut nextOffset cnt.toNat)
    let q := shiftOffsets slotNo recLen (-q.slotCnt).toNat q
    let q := q.setFreePtr (q.freePtr - recLen)
    let q := q.setFreeSpace (q.freeSpace + recLen)
    if slotNo = q.slotCnt + 1 then (.ok,popSlots (-q.slotCnt).toNat q)
    else (.ok,(q.setSlotLength slotNo (-1)).setSlotOffset slotNo 0)
  else (.invalidSlotNo,p)

-- while (i > slotCnt) if (slot[i].length == -1) i--; else break;
def skipFree (p : Page) : Nat → Int → Int
  | 0,i => i
  | turns+1,i => if p.slotLength i = -1 then skipFree p turns (i-1) else i

def firstRecord (p : Page) : Except Status RID :=
  let i := p.skipFree (-p.slotCnt).toNat 0
  if i = p.slotCnt ∨ p.slotLength i = -1 then .error .noRecords else .ok ⟨p.curPage,-i⟩

def nextRecord (p : Page) (curRid : RID) : Except Status RID :=
  let start := -curRid.slotNo - 1
  let i := p.skipFree (start - p.slotCnt).toNat start
  if i ≤ p.slotCnt ∨ p.slotLength i = -1 then .error .endOfPage else .ok ⟨p.curPage,-i⟩

def getRecord (p : Page) (rid : RID) : Except Status Record :=
  if -rid.slotNo > p.slotCnt ∧ p.slotLength (-rid.slotNo) > 0 then
    let offset := p.slotOffset (-rid.slotNo)
    .ok ⟨p.copyOut offset (p.slotLength (-rid.slotNo)).toNat,p.slotLength (-rid.slotNo)⟩
  else .error .invalidSlotNo

end Page
end Minirel
