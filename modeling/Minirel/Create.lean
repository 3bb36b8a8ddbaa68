import Minirel.Catalog
import Minirel.Literals

namespace Minirel
open ByteMemory

namespace RelCatalog

-- tupleWidth is an unsigned int.
def tupleWidth (attrList : List AttrInfo) : Int := (attrList.map AttrInfo.attrLen).sum % 2 ^ 32

-- Inserts the information about the attributes one by one; what has been inserted stays when a
-- later one fails.
def addAttributes (relation : Name) : List AttrInfo → Int → Db → Except Abort (Status × Db)
  | [],_,db => return (.ok,db)
  | attr::attrs,offset,db => do
    if attr.attrName.length ≥ maxName then return (.nameTooLong,db)
    let (status,db) ← AttrCatalog.addInfo db ⟨relation,attr.attrName,offset,attr.attrType,attr.attrLen⟩
    if status ≠ .ok then return (status,db)
    addAttributes relation attrs (offset + attr.attrLen) db

def createRel (db : Db) (relation : Name) (attrList : List AttrInfo) : Except Abort (Status × Db) := do
  if relation = [] ∨ attrList.length < 1 then return (.badCatParm,db)
  if relation.length ≥ maxName then return (.nameTooLong,db)
  let (status,_,db) ← getInfo db relation ⟨[],0⟩
  if status = .ok then return (.relExists,db)
  if status ≠ .relNotFound then return (status,db)
  if ¬ (attrList.map AttrInfo.attrName).Nodup then return (.duplAttr,db)
  if tupleWidth attrList > pageSize then return (.attrTooLong,db)
  let (status,db) ← addInfo db ⟨relation,attrList.length⟩
  if status ≠ .ok then return (status,db)
  let (status,db) ← addAttributes relation attrList 0 db
  if status ≠ .ok then return (status,db)
  db.createHeapFile relation

def destroyRel (db : Db) (relation : Name) : Except Abort (Status × Db) := do
  if relation = [] ∨ relation = relCatName ∨ relation = attrCatName then return (.badCatParm,db)
  let (status,db) ← AttrCatalog.dropRelation db relation
  if status ≠ .ok then return (status,db)
  let (status,db) ← removeInfo db relation
  if status ≠ .ok then return (status,db)
  return db.destroyHeapFile relation

end RelCatalog

-- CALL(c) leaves the process on any error.
def call {α : Type} (result : Status × α) : Except Abort α :=
  if result.1 = .ok then .ok result.2 else .error .exit

def relNameWord : Name := [114,101,108,78,97,109,101]
def attrCntWord : Name := [97,116,116,114,67,110,116]
def attrNameWord : Name := [97,116,116,114,78,97,109,101]
def attrOffsetWord : Name := [97,116,116,114,79,102,102,115,101,116]
def attrTypeWord : Name := [97,116,116,114,84,121,112,101]
def attrLenWord : Name := [97,116,116,114,76,101,110]

-- The tuples describing relcat and attrcat.
def relCatAttributes : List AttrDesc :=
  [⟨relCatName,relNameWord,0,Datatype.string.code,32⟩,⟨relCatName,attrCntWord,32,Datatype.integer.code,4⟩]

def attrCatAttributes : List AttrDesc :=
  [⟨attrCatName,relNameWord,0,Datatype.string.code,32⟩,⟨attrCatName,attrNameWord,32,Datatype.string.code,32⟩,
    ⟨attrCatName,attrOffsetWord,64,Datatype.integer.code,4⟩,⟨attrCatName,attrTypeWord,68,Datatype.integer.code,4⟩,
    ⟨attrCatName,attrLenWord,72,Datatype.integer.code,4⟩]

def addAll (db : Db) (attrs : List AttrDesc) : Except Abort Db :=
  attrs.foldlM (fun db d => do call (← AttrCatalog.addInfo db d)) db

-- dbcreate, in a directory that mkdir has just made.
def dbcreate (db : Db) : Except Abort Db := do
  let db ← call (← db.createHeapFile relCatName)
  let db ← call (← db.createHeapFile attrCatName)
  let (status,relCat,db) ← db.newHeapFile relCatName
  let db ← call (status,db)
  let (status,attrCat,db) ← db.newHeapFile attrCatName
  let db ← call (status,db)
  let db ← call (← RelCatalog.addInfo db ⟨relCatName,2⟩)
  let db ← addAll db relCatAttributes
  let db ← call (← RelCatalog.addInfo db ⟨attrCatName,5⟩)
  let db ← addAll db attrCatAttributes
  let db ← db.deleteHeapFile relCatName relCat
  db.deleteHeapFile attrCatName attrCat

-- What main of minirel does before it takes statements: both catalogs stay open.
def openCatalogs (db : Db) : Except Abort Db := do
  let (status,_,db) ← db.newHeapFile relCatName
  let db ← call (status,db)
  let (status,_,db) ← db.newHeapFile attrCatName
  call (status,db)

end Minirel
