import Minirel.Create
import Minirel.Delete
import Minirel.Insert
import Minirel.JoinTypes
import Minirel.Load
import Minirel.Parse

namespace Minirel
open ByteMemory

-- "Tmp_Minirel_Result"
def tmpResultName : Name := [84,109,112,95,77,105,110,105,114,101,108,95,82,101,115,117,108,116]

def maxStringLen : Nat := 255

-- E_INCOMPATIBLE, E_TOOMANYATTRS, E_INVFORMATSTRING and E_STRINGTOOLONG; nothing returns the others.
inductive Refusal where
  | incompatible | tooManyAttrs | invFormatString | stringTooLong
  deriving DecidableEq,Repr

-- What a statement finds beside the database: atof, what sprintf makes of a float, for how many turns
-- the caller waits, what locals hold before they are set, the join method that main was given, and the
-- files that load can open.
structure Setting where
  atof : List UInt8 → List UInt8
  sprintf : List UInt8 → List UInt8
  turns : Nat
  stack : List UInt8
  attrDesc : AttrDesc
  joinMethod : JoinType
  unixFile : Name → Option DataFile

-- What outlives a statement; counter is a static int of interp.
structure Interpreter where
  db : Db
  counter : Int

-- sprintf("%d")
def decimal (v : Int) : List UInt8 := (toString v).toList.map fun c => c.toNat.toUInt8

-- strcpy and sprintf("%s") into an array of this size, with the NUL; what runs over belongs to others.
def strcpy (size : Nat) (src : List UInt8) : Except Abort (List UInt8) := if src.length <
    size then .ok src else .error .undefined

namespace Value

def typeOf : Value → Datatype
  | integer _ => .integer
  | real _ => .float
  | string _ => .string

-- The array value has 255 chars.
def valueOf (setting : Setting) : Value → Except Abort (List UInt8)
  | integer ival => strcpy 255 (decimal ival)
  | real rval => strcpy 255 (setting.sprintf rval)
  | string sval => strcpy 255 sval

end Value

namespace Interp

-- The loop over a list, up to the first item that is refused.
def convert {α β : Type} (item : α → Except Abort (Except Refusal β)) : List α → Except Abort (Except Refusal (List β))
  | [] => return .ok []
  | a::rest => do
    match ← item a with
    | .error refusal => return .error refusal
    | .ok b =>
      match ← convert item rest with
      | .error refusal => return .error refusal
      | .ok bs => return .ok (b::bs)

-- i < MAXATTRS ends the loop; then a list that is not at its end is too long, and so is one that is.
def mkList {α β : Type} (item : α → Except Abort (Except Refusal β)) (list : List α) :
    Except Abort (Except Refusal (List β)) := do
  match ← convert item (list.take maxAttrs) with
  | .error refusal => return .error refusal
  | .ok made => return if maxAttrs ≤ list.length then .error .tooManyAttrs else .ok made

-- All attributes are of relation relname, or of that of the first when there is none.
def mkAttrnames (attrs : List (Name × Name)) (relname : Option Name) :
    Except Abort (Except Refusal (List (Name × Name))) :=
  mkList (fun a => return if some a.1 = relname.or (attrs.head?.map Prod.fst) then .ok a else .error .incompatible)
    attrs

def mkQualAttrs (attrs : List (Name × Name)) (relname1 relname2 : Name) :
    Except Abort (Except Refusal (List (Name × Name))) :=
  mkList (fun a => return if a.1 = relname1 ∨ a.1 = relname2 then .ok a else .error .incompatible) attrs

-- The types 'i'-128 and 'f'-128; the others are lengths of strings.
def parseFormatString (format : Int) : Option (Datatype × Int) :=
  if format = -23 then some (.integer,4)
  else if format = -26 then some (.float,4)
  else if format ≤ 255 ∧ 1 ≤ format then some (.string,format)
  else none

def mkAttrDescrs (attrs : List (Name × Int)) : Except Abort (Except Refusal (List (Name × Datatype × Int))) :=
  mkList (fun a => return match parseFormatString a.2 with
    | none => .error .invFormatString
    | some format => .ok (a.1,format)) attrs

-- ATTR_VAL, without the length, which nothing reads.
def insAttr (setting : Setting) (a : Name × Value) : Except Abort (Except Refusal (Name × Datatype × List UInt8)) :=
  let tooLong := match a.2 with
    | .string sval => decide (sval.length > maxStringLen)
    | _ => false
  if tooLong then return .error .stringTooLong
  else do
    let value ← a.2.valueOf setting
    return .ok (a.1,a.2.typeOf,value)

def mkInsAttrs (setting : Setting) (attrs : List (Name × Value)) :
    Except Abort (Except Refusal (List (Name × Datatype × List UInt8))) :=
  mkList (insAttr setting) attrs

-- What is stored in an attrInfo, whose names have MAXNAME chars.
def attrInfo (relName attrName : Name) (attrType attrLen : Int) (attrValue : Option (List UInt8)) :
    Except Abort AttrInfo := do
  let relName ← strcpy maxName relName
  let attrName ← strcpy maxName attrName
  return ⟨relName,attrName,attrType,attrLen,attrValue⟩

def attrInfos : List (Name × Name × Int × Int × Option (List UInt8)) → Except Abort (List AttrInfo)
  | [] => return []
  | (relName,attrName,attrType,attrLen,attrValue)::rest => do
    let info ← attrInfo relName attrName attrType attrLen attrValue
    return info::(← attrInfos rest)

-- An attribute to project on, or one side of a join.
def untyped (a : Name × Name) : Name × Name × Int × Int × Option (List UInt8) := (a.1,a.2,-1,-1,none)

def insertArguments (setting : Setting) (relname : Name) (attrlist : List (Name × Value)) :
    Except Abort (Except Refusal (List AttrInfo)) := do
  match ← mkInsAttrs setting attrlist with
  | .error refusal => return .error refusal
  | .ok attrs => return .ok (← attrInfos (attrs.map fun a => (relname,a.1,a.2.1.code,-1,some a.2.2)))

def createArguments (relname : Name) (attrlist : List (Name × Int)) :
    Except Abort (Except Refusal (List AttrInfo)) := do
  match ← mkAttrDescrs attrlist with
  | .error refusal => return .error refusal
  | .ok attrs => return .ok (← attrInfos (attrs.map fun a => (relname,a.1,a.2.1.code,a.2.2,none)))

-- What a query asks of the query layer, beside the attributes to project on.
inductive Request where
  | select (attr : Option AttrInfo) (op : Operator) (attrValue : List UInt8)
  | join (attr1 : AttrInfo) (op : Operator) (attr2 : AttrInfo)

def queryArguments (setting : Setting) (attrlist : List (Name × Name)) (qual : Option Qual) :
    Except Abort (Except Refusal (List AttrInfo × Request)) := do
  match qual with
  | none =>
    match ← mkAttrnames attrlist none with
    | .error refusal => return .error refusal
    | .ok attrs => return .ok (← attrInfos (attrs.map untyped),.select none .lt [])
  | some (.select selattr op value) =>
    match ← mkAttrnames attrlist (some selattr.1) with
    | .error refusal => return .error refusal
    | .ok attrs =>
      let infos ← attrInfos (attrs.map untyped)
      let attr1 ← attrInfo selattr.1 selattr.2 value.typeOf.code (-1) none
      let text ← value.valueOf setting
      return .ok (infos,.select (some {attr1 with attrValue := some text}) op text)
  | some (.join joinattr1 op joinattr2) =>
    match ← mkQualAttrs attrlist joinattr1.1 joinattr2.1 with
    | .error refusal => return .error refusal
    | .ok attrs =>
      let infos ← attrInfos (attrs.map untyped)
      let attr1 ← attrInfo joinattr1.1 joinattr1.2 (-1) (-1) none
      let attr2 ← attrInfo joinattr2.1 joinattr2.2 (-1) (-1) none
      return .ok (infos,.join attr1 op attr2)

end Interp

-- UT_Print, as far as the records that it prints; an error leaves hfile open.
def printLoop (relation : Name) : Nat → Db → HeapFileScan → Except Abort (Status × List Record × HeapFileScan × Db)
  | 0,_,_ => throw .diverges
  | turns+1,db,hfile => do
    let (next,hfile,db) ← db.scanNext relation hfile
    match next with
    | .error status => return (if status = .fileEof then .ok else status,[],hfile,db)
    | .ok _ =>
      match ← db.getRecord relation hfile with
      | .error status => return (status,[],hfile,db)
      | .ok rec =>
        let (status,recs,hfile,db) ← printLoop relation turns db hfile
        return (status,rec::recs,hfile,db)

def UT_Print (turns : Nat) (db : Db) (relation : Name) : Except Abort (Status × List Record × Db) := do
  let (status,rd,db) ← RelCatalog.getInfo db (if relation = [] then relCatName else relation) ⟨[],0⟩
  if status ≠ .ok then return (status,[],db)
  let (status,_,db) ← AttrCatalog.getRelInfo db rd.relName
  if status ≠ .ok then return (status,[],db)
  let (status,hfile,db) ← db.newHeapFileScan rd.relName
  if status ≠ .ok then return (status,[],db)
  let (status,hfile) := hfile.startScan 0 0 (some .integer) none .eq
  if status ≠ .ok then return (status,[],db)
  let (status,recs,hfile,db) ← printLoop rd.relName turns db hfile
  if status ≠ .ok then return (status,recs,db)
  let (status,hfile,db) ← db.endScan rd.relName hfile
  if status ≠ .ok then return (status,recs,db)
  return (.ok,recs,← db.deleteHeapFileScan rd.relName hfile)

def RelCatalog.help (turns : Nat) (db : Db) (relation : Name) : Except Abort (Status × Db) := do
  if relation = [] then
    let (status,_,db) ← UT_Print turns db relCatName
    return (status,db)
  let (status,_,db) ← getInfo db relation ⟨[],0⟩
  if status ≠ .ok then return (status,db)
  let (status,_,db) ← AttrCatalog.getRelInfo db relation
  return (status,db)

section query
open Interp

-- The result relation, with its attributes when there is one already. None is there for the user to
-- see when the relation of that name may not be used.
def resultRelation (db : Db) (relname : Option Name) : Except Abort (Option (Name × Option (List AttrDesc)) × Db) := do
  match relname with
  | some resultName =>
    let (status,attrs,db) ← AttrCatalog.getRelInfo db resultName
    if status ≠ .ok ∧ status ≠ .relNotFound then return (none,db)
    return (some (resultName,if status = .relNotFound then none else some attrs),db)
  | none =>
    let (status,_,db) ← RelCatalog.getInfo db tmpResultName ⟨[],0⟩
    return (if status = .relNotFound then some (tmpResultName,none) else none,db)

-- createAttrInfo[i].attrName. A join gives a number to a name that an earlier attribute has; one that
-- gets too long for its array runs into the members behind it, which are set afterwards.
def createName (request : Request) (counter : Int) (made : List AttrInfo) (attrName : Name) : Name × Int :=
  match request with
  | .select .. => (attrName,counter)
  | .join .. =>
    if attrName ∈ made.map AttrInfo.attrName then (attrName ++ 95::decimal counter,Int.bmod (counter + 1) (2 ^ 32))
    else (attrName,counter)

def createInfos (request : Request) (resultName : Name) : List AttrInfo → List AttrInfo → Interpreter →
    Except Abort (Status × List AttrInfo × Interpreter)
  | [],made,s => return (.ok,made,s)
  | attr::attrs,made,s => do
    let info ← attrInfo resultName attr.attrName 0 0 none
    let (name,counter) := createName request s.counter made info.attrName
    let (status,attrDesc,db) ← AttrCatalog.getInfo s.db attr.relName attr.attrName ⟨[],[],0,0,0⟩
    if status ≠ .ok then return (status,made,⟨db,counter⟩)
    createInfos request resultName attrs (made ++ [⟨info.relName,name,attrDesc.attrType,attrDesc.attrLen,none⟩])
      ⟨db,counter⟩

-- Each attribute beside the one of the result relation that it is to be stored in.
def matchTypes : Db → List (AttrInfo × AttrDesc) → Except Abort (Status × Db)
  | db,[] => return (.ok,db)
  | db,(info,attr)::rest => do
    let (status,attrDesc,db) ← AttrCatalog.getInfo db info.relName info.attrName ⟨[],[],0,0,0⟩
    if status ≠ .ok then return (status,db)
    if attrDesc.attrType ≠ attr.attrType ∨ attrDesc.attrLen ≠ attr.attrLen then return (.attrTypeMismatch,db)
    matchTypes db rest

def prepareResult (request : Request) (resultName : Name) (existing : Option (List AttrDesc)) (infos : List AttrInfo)
    (s : Interpreter) :
    Except Abort (Status × Interpreter) := do
  match existing with
  | none =>
    let (status,createAttrInfo,s) ← createInfos request resultName infos [] s
    if status ≠ .ok then return (status,s)
    let (status,db) ← RelCatalog.createRel s.db resultName createAttrInfo
    return (status,{s with db := db})
  | some attrs =>
    if infos.length ≠ attrs.length then return (.attrTypeMismatch,s)
    let (status,db) ← matchTypes s.db (infos.zip attrs)
    return (status,{s with db := db})

def runRequest (setting : Setting) (db : Db) (resultName : Name) (infos : List AttrInfo) :
    Request → Except Abort (Status × Db)
  | .select attr op attrValue => QU_Select setting.atof setting.turns db resultName infos attr op attrValue
  | .join attr1 op attr2 => QU_Join setting.joinMethod setting.turns db resultName infos attr1 op attr2

-- N_QUERY. The temporary result is printed and destroyed whatever the query returned.
def interpQuery (setting : Setting) (relname : Option Name) (attrlist : List (Name × Name)) (qual : Option Qual)
    (s : Interpreter) :
    Except Abort Interpreter := do
  let (found,db) ← resultRelation s.db relname
  let some (resultName,existing) := found | return {s with db := db}
  let .ok (infos,request) ← queryArguments setting attrlist qual | return {s with db := db}
  let (status,s) ← prepareResult request resultName existing infos {s with db := db}
  if status ≠ .ok then return s
  let (_,db) ← runRequest setting s.db resultName infos request
  if resultName ≠ tmpResultName then return {s with db := db}
  let (_,_,db) ← UT_Print setting.turns db resultName
  let (_,db) ← RelCatalog.destroyRel db resultName
  return {s with db := db}

end query

-- N_DELETE
def interpDelete (setting : Setting) (relname : Name) (qual : Option Qual) (s : Interpreter) :
    Except Abort Interpreter := do
  match qual with
  | none =>
    let (_,db) ← QU_Delete setting.atof s.db relname [] .lt .string [] setting.attrDesc
    return {s with db := db}
  | some (.select selattr op value) =>
    let text ← value.valueOf setting
    let (_,db) ← QU_Delete setting.atof s.db relname selattr.2 op value.typeOf text setting.attrDesc
    return {s with db := db}
  | some (.join ..) => return s

-- A statement; of its errors, which are printed, nothing is kept. The nodes of the index commands
-- fail the assertion behind the last case.
def interp (setting : Setting) (n : Node) (s : Interpreter) : Except Abort Interpreter := do
  match n with
  | .query relname attrlist qual => interpQuery setting relname attrlist qual s
  | .insert relname attrlist =>
    let .ok infos ← Interp.insertArguments setting relname attrlist | return s
    let (_,db) ← QU_Insert setting.atof setting.stack s.db relname infos
    return {s with db := db}
  | .delete relname qual => interpDelete setting relname qual s
  | .create relname attrlist _ =>
    let .ok infos ← Interp.createArguments relname attrlist | return s
    let (_,db) ← RelCatalog.createRel s.db relname infos
    return {s with db := db}
  | .destroy relname =>
    let (_,db) ← RelCatalog.destroyRel s.db relname
    return {s with db := db}
  | .build .. => throw .exit
  | .drop .. => throw .exit
  | .load relname filename =>
    let (_,db) ← UT_Load setting.turns s.db relname filename (setting.unixFile filename)
    return {s with db := db}
  | .print relname =>
    let (_,_,db) ← UT_Print setting.turns s.db relname
    return {s with db := db}
  | .help relname =>
    let (_,db) ← RelCatalog.help setting.turns s.db (relname.getD [])
    return {s with db := db}

end Minirel
