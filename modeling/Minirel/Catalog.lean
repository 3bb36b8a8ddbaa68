import Minirel.Db

namespace Minirel
open ByteMemory SlotDirectory Page Heap

def maxName : Nat := 32
def relCatName : Name := [114,101,108,99,97,116]
def attrCatName : Name := [97,116,116,114,99,97,116]

-- A char array as a C string: up to the first NUL.
def cstring (bytes : List UInt8) : Name := bytes.takeWhile (· ≠ 0)

-- relName[32] and attrCnt.
structure RelDesc where
  relName : Name
  attrCnt : Int
  deriving DecidableEq,Repr

def RelDesc.size : Nat := 36
def RelDesc.ofBytes (row : List UInt8) : RelDesc := ⟨cstring row,decode (bytesAt (row.drop 32) 4)⟩

-- What addInfo writes: the name is padded with NULs.
def RelDesc.bytes (d : RelDesc) : List UInt8 := bytesAt d.relName maxName ++ encode 4 d.attrCnt

-- relName[32], attrName[32] and three ints.
structure AttrDesc where
  relName : Name
  attrName : Name
  attrOffset : Int
  attrType : Int
  attrLen : Int
  deriving DecidableEq,Repr

def AttrDesc.size : Nat := 76

def AttrDesc.ofBytes (row : List UInt8) : AttrDesc where
  relName := cstring row
  attrName := cstring (row.drop 32)
  attrOffset := decode (bytesAt (row.drop 64) 4)
  attrType := decode (bytesAt (row.drop 68) 4)
  attrLen := decode (bytesAt (row.drop 72) 4)

def AttrDesc.bytes (d : AttrDesc) : List UInt8 :=
  bytesAt d.relName maxName ++ bytesAt d.attrName maxName ++ encode 4 d.attrOffset ++ encode 4 d.attrType ++
    encode 4 d.attrLen

structure AttrInfo where
  relName : Name
  attrName : Name
  attrType : Int
  attrLen : Int
  attrValue : Option (List UInt8)
  deriving DecidableEq,Repr

-- As many turns as a scan of the file can take.
def Db.turns (db : Db) (name : Name) : Nat := (db.files name).elim 0 HeapFileScan.recordTurns

-- The common beginning of the catalog's methods: a scan for the rows of one relation.
def openRows (db : Db) (catalog relation : Name) : Except Abort (Status × HeapFileScan × Db) := do
  let (status,hfs,db) ← db.newHeapFileScan catalog
  if status ≠ .ok then return (status,hfs,db)
  let (status,hfs) := hfs.startScan 0 (relation.length + 1) (some .string) (some relation) .eq
  if status ≠ .ok then return (status,hfs,← db.deleteHeapFileScan catalog hfs)
  return (.ok,hfs,db)

-- while((status = hfs->scanNext(rid)) == OK) over rows of one size, until visit asks to stop. An
-- error of getRecord is returned by the method at once, with the scan left open.
def scanRows {α : Type} (catalog : Name) (size : Nat) (visit : α → List UInt8 → α × Bool) :
    Nat → Db → HeapFileScan → α → Except Abort (Except Status Status × α × HeapFileScan × Db)
  | 0,_,_,_ => throw .diverges
  | turns+1,db,hfs,a => do
    let (result,hfs,db) ← db.scanNext catalog hfs
    match result with
    | .error status => return (.ok status,a,hfs,db)
    | .ok _ =>
      match ← db.getRecord catalog hfs with
      | .error status => return (.error status,a,hfs,db)
      | .ok rec =>
        -- assert(size == rec.length)
        if rec.length ≠ size then throw .exit
        let (a,stop) := visit a rec.data
        if stop then return (.ok .ok,a,hfs,db) else scanRows catalog size visit turns db hfs a

-- nextStatus = hfs->endScan(), which counts only after a success; then delete hfs.
def closeRows (db : Db) (catalog : Name) (hfs : HeapFileScan) (status : Status) : Except Abort (Status × Db) := do
  let (nextStatus,hfs,db) ← db.endScan catalog hfs
  return (if status = .ok then nextStatus else status,← db.deleteHeapFileScan catalog hfs)

def addRow (db : Db) (catalog : Name) (row : List UInt8) : Except Abort (Status × Db) := do
  let (status,ifs,db) ← db.newInsertFileScan catalog
  if status ≠ .ok then return (status,db)
  let (result,ifs,db) ← db.insertRecord catalog ifs (.of row)
  let db ← db.deleteInsertFileScan catalog ifs
  match result with
  | .ok _ => return (.ok,db)
  | .error status => return (status,db)

namespace RelCatalog

def takeFirst (_ : RelDesc) (row : List UInt8) : RelDesc × Bool := (RelDesc.ofBytes row,true)

def getInfo (db : Db) (relation : Name) (record : RelDesc) : Except Abort (Status × RelDesc × Db) := do
  if relation = [] then return (.badCatParm,record,db)
  let (status,hfs,db) ← openRows db relCatName relation
  if status ≠ .ok then return (status,record,db)
  let (ended,record,hfs,db) ← scanRows relCatName RelDesc.size takeFirst (db.turns relCatName) db hfs record
  match ended with
  | .error status => return (status,record,db)
  | .ok status =>
    let (status,db) ← closeRows db relCatName hfs (if status = .fileEof then .relNotFound else status)
    return (status,record,db)

def addInfo (db : Db) (record : RelDesc) : Except Abort (Status × Db) := addRow db relCatName record.bytes

-- The scan is deleted, and only then is endScan called on it.
def removeInfo (db : Db) (relation : Name) : Except Abort (Status × Db) := do
  if relation = [] then return (.badCatParm,db)
  let (status,hfs,db) ← openRows db relCatName relation
  if status ≠ .ok then return (status,db)
  let (result,hfs,db) ← db.scanNext relCatName hfs
  match result with
  | .error status =>
    let db ← db.deleteHeapFileScan relCatName hfs
    db.endDeletedScan
    return (if status = .fileEof then .relNotFound else if status = .noRecords then .ok else status,db)
  | .ok _ =>
    let (status,hfs,db) ← db.deleteRecord relCatName hfs
    let db ← db.deleteHeapFileScan relCatName hfs
    db.endDeletedScan
    return (if status = .noRecords then .ok else status,db)

end RelCatalog

namespace AttrCatalog

def takeNamed (attrName : Name) (_ : AttrDesc) (row : List UInt8) : AttrDesc × Bool :=
  (AttrDesc.ofBytes row,(AttrDesc.ofBytes row).attrName = attrName)

-- record has the row that was read last, whether the attribute was found or not.
def getInfo (db : Db) (relation attrName : Name) (record : AttrDesc) : Except Abort (Status × AttrDesc × Db) := do
  if relation = [] ∨ attrName = [] then return (.badCatParm,record,db)
  let (status,hfs,db) ← openRows db attrCatName relation
  if status ≠ .ok then return (status,record,db)
  let (ended,record,hfs,db) ← scanRows attrCatName AttrDesc.size (takeNamed attrName) (db.turns attrCatName)
    db hfs record
  match ended with
  | .error status => return (status,record,db)
  | .ok status =>
    let (status,db) ← closeRows db attrCatName hfs (if status = .fileEof then .attrNotFound else status)
    return (status,record,db)

def addInfo (db : Db) (record : AttrDesc) : Except Abort (Status × Db) := addRow db attrCatName record.bytes

def removeInfo (db : Db) (relation attrName : Name) : Except Abort (Status × Db) := do
  if relation = [] ∨ attrName = [] then return (.badCatParm,db)
  let (status,hfs,db) ← openRows db attrCatName relation
  if status ≠ .ok then return (status,db)
  let (ended,_,hfs,db) ← scanRows attrCatName AttrDesc.size (takeNamed attrName) (db.turns attrCatName) db hfs
    ⟨[],[],0,0,0⟩
  match ended with
  | .error status => return (status,db)
  | .ok .ok =>
    let (status,hfs,db) ← db.deleteRecord attrCatName hfs
    let (_,hfs,db) ← db.endScan attrCatName hfs
    let db ← db.deleteHeapFileScan attrCatName hfs
    return (if status = .noRecords then .ok else status,db)
  | .ok status =>
    let (_,hfs,db) ← db.endScan attrCatName hfs
    let db ← db.deleteHeapFileScan attrCatName hfs
    return (if status = .fileEof then .relNotFound else if status = .noRecords then .ok else status,db)

def takeAll (attrs : List AttrDesc) (row : List UInt8) : List AttrDesc × Bool := (attrs ++ [AttrDesc.ofBytes row],false)

-- attrCnt is the number of attrs.
def getRelInfo (db : Db) (relation : Name) : Except Abort (Status × List AttrDesc × Db) := do
  if relation = [] then return (.badCatParm,[],db)
  let (status,hfs,db) ← openRows db attrCatName relation
  if status ≠ .ok then return (status,[],db)
  let (ended,attrs,hfs,db) ← scanRows attrCatName AttrDesc.size takeAll (db.turns attrCatName) db hfs []
  match ended with
  | .error status => return (status,attrs,db)
  | .ok status =>
    let (status,db) ← closeRows db attrCatName hfs
      (if status = .fileEof then if attrs = [] then .relNotFound else .ok else status)
    return (status,attrs,db)

def removeAll (relation : Name) : List AttrDesc → Db → Except Abort (Status × Db)
  | [],db => return (.ok,db)
  | attr::attrs,db => do
    let (status,db) ← removeInfo db relation attr.attrName
    if status ≠ .ok then return (status,db)
    removeAll relation attrs db

def dropRelation (db : Db) (relation : Name) : Except Abort (Status × Db) := do
  if relation = [] then return (.badCatParm,db)
  let (status,attrs,db) ← getRelInfo db relation
  if status ≠ .ok then return (status,db)
  removeAll relation attrs db

end AttrCatalog
end Minirel
