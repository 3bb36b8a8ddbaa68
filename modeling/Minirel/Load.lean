import Minirel.Select

namespace Minirel
open ByteMemory SlotDirectory Page Heap

-- A Unix data file as one descriptor reads it: what each read of a tuple's width gives in turn, none
-- when it returns -1, and whether close succeeds.
structure DataFile where
  reads : Nat → Option (List UInt8)
  closes : Bool

-- while((nbytes = read(fd, record, width)) == width)
def loadLoop (reads : Nat → Option (List UInt8)) (relation : Name) (width : Int) :
    Nat → Nat → Db → InsertFileScan → Except Abort (Status × InsertFileScan × Db)
  | 0,_,_,_ => throw .diverges
  | turns+1,done,db,iFile =>
    match reads done with
    | none => return (.ok,iFile,db)
    | some record =>
      if record.length ≠ width then return (.ok,iFile,db)
      else do
        let (inserted,iFile,db) ← db.insertRecord relation iFile (.of record)
        match inserted with
        | .error status => return (status,iFile,db)
        | .ok _ => loadLoop reads relation width turns (done + 1) db iFile

-- file is what open finds under the name. A failed insert returns at once, with iFile and the data
-- file left open.
def UT_Load (turns : Nat) (db : Db) (relation fileName : Name) (file : Option DataFile) :
    Except Abort (Status × Db) := do
  if relation = [] ∨ fileName = [] ∨ relation = relCatName ∨ relation = attrCatName then return (.badCatParm,db)
  let some fd := file | return (.unixErr,db)
  let (status,rd,db) ← RelCatalog.getInfo db relation ⟨[],0⟩
  if status ≠ .ok then return (status,db)
  let (status,attrs,db) ← AttrCatalog.getRelInfo db rd.relName
  if status ≠ .ok then return (status,db)
  let (status,iFile,db) ← db.newInsertFileScan rd.relName
  if status ≠ .ok then return (status,db)
  let width ← recLen attrs
  let (status,iFile,db) ← loadLoop fd.reads rd.relName width turns 0 db iFile
  if status ≠ .ok then return (status,db)
  let db ← db.deleteInsertFileScan rd.relName iFile
  if fd.closes then return (.ok,db) else return (.unixErr,db)

end Minirel
