import Minirel.Turns
import Minirel.Load
import Minirel.Delete
import Minirel.Join

namespace Minirel
open ByteMemory SlotDirectory Page Heap Turns

-- The status of a call that gave nothing else.
def failure {α : Type} : Except Status α → Option Status
  | .error status => some status
  | .ok _ => none

-- scanNext as the condition of a loop.
def scanTurn (db : Db) (name : Name) (s : HeapFileScan) : Except Abort (Option Status × HeapFileScan × Db) := do
  let (next,s,db) ← db.scanNext name s
  return (failure next,s,db)

-- The loops of the operators, by what ends them and what a turn does.
def selectTurns (source result : Name) (projNames : List AttrDesc) :
    Loop (Db × HeapFileScan × InsertFileScan) Status Status Abort where
  next := fun (db,hfs,rel) => do
    let (next,hfs,db) ← scanTurn db source hfs
    return (next,db,hfs,rel)
  body := fun (db,hfs,rel) => do
    match ← db.getRecord source hfs with
    | .error status => return (some status,db,hfs,rel)
    | .ok rec =>
      let data ← project rec projNames
      let (inserted,rel,db) ← db.insertRecord result rel (.of data)
      return (failure inserted,db,hfs,rel)

theorem selectLoop_turns (source result : Name) (projNames : List AttrDesc) (turns : Nat) (db : Db)
    (hfs : HeapFileScan) (rel : InsertFileScan) :
    selectLoop source result projNames turns db hfs rel = do
      let (status,db,hfs,rel) ← (selectTurns source result projNames).run .ok .diverges turns (db,hfs,rel)
      return (status,hfs,rel,db) := by
  induction turns generalizing db hfs rel with
  | zero => rfl
  | succ turns ih =>
    rw [selectLoop,Loop.run,selectTurns]
    dsimp only [scanTurn]
    cases db.scanNext source hfs with
    | error a => rfl
    | ok result1 =>
      obtain ⟨next,hfs1,db1⟩ := result1
      cases next with
      | error status => rfl
      | ok rid =>
        simp only [ok_bind,pure_ok,failure]
        cases db1.getRecord source hfs1 with
        | error a => rfl
        | ok read =>
          cases read with
          | error status => rfl
          | ok rec =>
            simp only [ok_bind]
            cases project rec projNames with
            | error a => rfl
            | ok data =>
              simp only [ok_bind]
              cases db1.insertRecord result rel (.of data) with
              | error a => rfl
              | ok result2 =>
                obtain ⟨inserted,rel2,db2⟩ := result2
                cases inserted with
                | error status => rfl
                | ok rid2 => exact ih db2 hfs1 rel2

def deleteTurns (relation : Name) : Loop (Db × HeapFileScan) Status Status Abort where
  next := fun (db,hfs) => do
    let (next,hfs,db) ← scanTurn db relation hfs
    return (next,db,hfs)
  body := fun (db,hfs) => do
    let (status,hfs,db) ← db.deleteRecord relation hfs
    return (if status ≠ .ok then some status else none,db,hfs)

theorem deleteLoop_turns (relation : Name) (turns : Nat) (db : Db) (hfs : HeapFileScan) :
    deleteLoop relation turns db hfs = do
      let (status,db,hfs) ← (deleteTurns relation).run .ok .diverges turns (db,hfs)
      return (status,hfs,db) := by
  induction turns generalizing db hfs with
  | zero => rfl
  | succ turns ih =>
    rw [deleteLoop,Loop.run,deleteTurns]
    dsimp only [scanTurn]
    cases db.scanNext relation hfs with
    | error a => rfl
    | ok result =>
      obtain ⟨next,hfs1,db1⟩ := result
      cases next with
      | error status => rfl
      | ok rid =>
        simp only [ok_bind,pure_ok,failure]
        cases db1.deleteRecord relation hfs1 with
        | error a => rfl
        | ok removed =>
          obtain ⟨status,hfs2,db2⟩ := removed
          simp only [ok_bind]
          by_cases failed : status ≠ .ok
          · rw [if_pos failed,if_pos failed]
            rfl
          · rw [if_neg failed,if_neg failed]
            exact ih db2 hfs2

-- The read of the data file that ends the loop of UT_Load: not as many bytes as a tuple has.
def shortRead (width : Int) : Option (List UInt8) → Option (Option (List UInt8))
  | none => some none
  | some record => if record.length ≠ width then some (some record) else none

def loadTurns (reads : Nat → Option (List UInt8)) (relation : Name) (width : Int) :
    Loop (Nat × Db × InsertFileScan) (Option (List UInt8)) Status Abort where
  next := fun (done,db,iFile) => return (shortRead width (reads done),done,db,iFile)
  body := fun (done,db,iFile) => do
    let (inserted,iFile,db) ← db.insertRecord relation iFile (.of ((reads done).getD []))
    return (failure inserted,done + 1,db,iFile)

theorem loadLoop_turns (reads : Nat → Option (List UInt8)) (relation : Name) (width : Int) (turns done : Nat)
    (db : Db) (iFile : InsertFileScan) :
    loadLoop reads relation width turns done db iFile = do
      let (status,_,db,iFile) ← (loadTurns reads relation width).run .ok .diverges turns (done,db,iFile)
      return (status,iFile,db) := by
  induction turns generalizing done db iFile with
  | zero => rfl
  | succ turns ih =>
    rw [loadLoop,Loop.run,loadTurns]
    cases given : reads done with
    | none => simp [given,shortRead,ok_bind,pure_ok]
    | some record =>
      by_cases short : (record.length : Int) ≠ width
      · simp [given,shortRead,if_pos short,ok_bind,pure_ok]
      · simp only [given,shortRead,if_neg short,pure_ok,Option.getD_some]
        cases db.insertRecord relation iFile (.of record) with
        | error a => rfl
        | ok result =>
          obtain ⟨inserted,iFile1,db1⟩ := result
          cases inserted with
          | error status => rfl
          | ok rid => exact ih (done + 1) db1 iFile1

def innerTurns (inner result outerName : Name) (descs : List AttrDesc) (outerRec : Record) :
    Loop (Db × HeapFileScan × InsertFileScan) Status Status Abort where
  next := fun (db,innerScan,rel) => do
    let (next,innerScan,db) ← scanTurn db inner innerScan
    return (next,db,innerScan,rel)
  body := fun (db,innerScan,rel) => do
    match ← db.getRecord inner innerScan with
    | .error _ => throw .exit
    | .ok innerRec =>
      let data ← joinRecord outerName outerRec innerRec descs
      let (inserted,rel,db) ← db.insertRecord result rel (.of data)
      match inserted with
      | .error _ => throw .exit
      | .ok _ => return (none,db,innerScan,rel)

theorem innerLoop_turns (inner result outerName : Name) (descs : List AttrDesc) (outerRec : Record) (turns : Nat)
    (db : Db)
    (innerScan : HeapFileScan) (rel : InsertFileScan) :
    innerLoop inner result outerName descs outerRec turns db innerScan rel = do
      let (_,db,innerScan,rel) ← (innerTurns inner result outerName descs outerRec).run .ok .diverges turns
        (db,innerScan,rel)
      return (innerScan,rel,db) := by
  induction turns generalizing db innerScan rel with
  | zero => rfl
  | succ turns ih =>
    rw [innerLoop,Loop.run,innerTurns]
    dsimp only [scanTurn]
    cases db.scanNext inner innerScan with
    | error a => rfl
    | ok result1 =>
      obtain ⟨next,innerScan1,db1⟩ := result1
      cases next with
      | error status => rfl
      | ok rid =>
        simp only [ok_bind,pure_ok,failure]
        cases db1.getRecord inner innerScan1 with
        | error a => rfl
        | ok read =>
          cases read with
          | error status => rfl
          | ok rec =>
            simp only [ok_bind]
            cases joinRecord outerName outerRec rec descs with
            | error a => rfl
            | ok data =>
              simp only [ok_bind]
              cases db1.insertRecord result rel (.of data) with
              | error a => rfl
              | ok result2 =>
                obtain ⟨inserted,rel2,db2⟩ := result2
                cases inserted with
                | error status => rfl
                | ok rid2 => exact ih db2 innerScan1 rel2

def outerTurns (outer inner result : Name) (descs : List AttrDesc) (d1 d2 : AttrDesc) (op : Operator) (turns : Nat) :
    Loop (Db × HeapFileScan × InsertFileScan) Status Status Abort where
  next := fun (db,outerScan,rel) => do
    let (next,outerScan,db) ← scanTurn db outer outerScan
    return (next,db,outerScan,rel)
  body := fun (db,outerScan,rel) => do
    match ← db.getRecord outer outerScan with
    | .error _ => throw .exit
    | .ok outerRec =>
      let (status,rel,db) ← joinOuter outer inner result descs d1 d2 op turns db outerRec rel
      return (if status ≠ .ok then some status else none,db,outerScan,rel)

theorem outerLoop_turns (outer inner result : Name) (descs : List AttrDesc) (d1 d2 : AttrDesc) (op : Operator)
    (innerTurns turns : Nat)
    (db : Db) (outerScan : HeapFileScan) (rel : InsertFileScan) :
    outerLoop outer inner result descs d1 d2 op innerTurns turns db outerScan rel = do
      let (status,db,outerScan,rel) ←
        (outerTurns outer inner result descs d1 d2 op innerTurns).run .ok .diverges turns (db,outerScan,rel)
      return (status,outerScan,rel,db) := by
  induction turns generalizing db outerScan rel with
  | zero => rfl
  | succ turns ih =>
    rw [outerLoop,Loop.run,outerTurns]
    dsimp only [scanTurn]
    cases db.scanNext outer outerScan with
    | error a => rfl
    | ok result1 =>
      obtain ⟨next,outerScan1,db1⟩ := result1
      cases next with
      | error status => rfl
      | ok rid =>
        simp only [ok_bind,pure_ok,failure]
        cases db1.getRecord outer outerScan1 with
        | error a => rfl
        | ok read =>
          cases read with
          | error status => rfl
          | ok rec =>
            simp only [ok_bind]
            cases joinOuter outer inner result descs d1 d2 op innerTurns db1 rec rel with
            | error a => rfl
            | ok result2 =>
              obtain ⟨status,rel2,db2⟩ := result2
              simp only [ok_bind]
              by_cases failed : status ≠ .ok
              · rw [if_pos failed,if_pos failed]
                rfl
              · rw [if_neg failed,if_neg failed]
                exact ih db2 outerScan1 rel2

-- What an operator does before its loop; none when it returns before that.
def ScanSelect.start (atof : List UInt8 → List UInt8) (db : Db) (result : Name) (projNames : List AttrDesc)
    (attrDesc : Option AttrDesc)
    (op : Operator) (filter : List UInt8) : Except Abort (Option (Name × Db × HeapFileScan × InsertFileScan)) := do
  let some first := projNames.head? | throw .undefined
  let (status,hfs,db) ← db.newHeapFileScan first.relName
  if status ≠ .ok then return none
  let (status,rel,db) ← db.newInsertFileScan result
  if status ≠ .ok then throw .undefined
  let (status,hfs) := startSelect atof hfs attrDesc op filter
  if status ≠ .ok then return none
  return some (first.relName,db,hfs,rel)

def QU_Select.start (atof : List UInt8 → List UInt8) (db : Db) (result : Name) (projNames : List AttrInfo)
    (attr : Option AttrInfo)
    (op : Operator) (attrValue : List UInt8) : Except Abort
    (Option (List AttrDesc × Name × Db × HeapFileScan × InsertFileScan)) := do
  let (status,descs,db) ← projDescs db projNames
  if status ≠ .ok then return none
  match attr with
  | none =>
    let _ ← recLen descs
    return (← ScanSelect.start atof db result descs none .eq []).map (descs,·)
  | some attr =>
    let (status,attrDesc,db) ← AttrCatalog.getInfo db attr.relName attr.attrName ⟨[],[],0,0,0⟩
    if status ≠ .ok then return none
    let _ ← recLen descs
    return (← ScanSelect.start atof db result descs (some attrDesc) op attrValue).map (descs,·)

def QU_Delete.start (atof : List UInt8 → List UInt8) (db : Db) (relation attrName : Name) (op : Operator)
    (type : Datatype)
    (attrValue : List UInt8) (attrDesc : AttrDesc) : Except Abort (Option (Db × HeapFileScan)) := do
  let (status,hfs,db) ← db.newHeapFileScan relation
  if status ≠ .ok then return none
  let (_,attrDesc,db) ← AttrCatalog.getInfo db relation attrName attrDesc
  let (status,hfs) :=
    if attrName = [] then hfs.startScan 0 0 (some .string) none .eq
    else hfs.startScan attrDesc.attrOffset attrDesc.attrLen (some type) (some (searchValue atof type attrValue)) op
  if status ≠ .ok then return none
  return some (db,hfs)

def joinOuter.start (inner : Name) (d1 d2 : AttrDesc) (op : Operator) (db : Db) (outerRec : Record) :
    Except Abort (Option (Db × HeapFileScan)) := do
  let (status,innerScan,db) ← db.newHeapFileScan inner
  if status ≠ .ok then throw .undefined
  let (status,innerScan) := innerScan.startScan d2.attrOffset d2.attrLen (Datatype.ofCode d2.attrType)
    (some (outerRec.data.drop d1.attrOffset.toNat)) op.mirror
  if status ≠ .ok then return none
  if d1.attrOffset < 0 ∨ outerRec.length < d1.attrOffset + d2.attrLen then throw .undefined
  return some (db,innerScan)

def QU_NL_Join.start (db : Db) (result : Name) (projNames : List AttrInfo) (attr1 attr2 : AttrInfo) :
    Except Abort (Option (List AttrDesc × AttrDesc × AttrDesc × Db × HeapFileScan × InsertFileScan)) := do
  if attr1.attrType ≠ attr2.attrType ∨ attr1.attrLen ≠ attr2.attrLen then return none
  let (status,descs,db) ← projDescs db projNames
  if status ≠ .ok then return none
  let (status,d1,db) ← AttrCatalog.getInfo db attr1.relName attr1.attrName ⟨[],[],0,0,0⟩
  if status ≠ .ok then return none
  let (status,d2,db) ← AttrCatalog.getInfo db attr2.relName attr2.attrName ⟨[],[],0,0,0⟩
  if status ≠ .ok then return none
  let _ ← recLen descs
  let (status,rel,db) ← db.newInsertFileScan result
  if status ≠ .ok then throw .undefined
  let (status,outerScan,db) ← db.newHeapFileScan d1.relName
  if status ≠ .ok then throw .undefined
  return some (descs,d1,d2,db,(outerScan.startScan 0 0 (some .string) none .eq).2,rel)

def UT_Load.start (db : Db) (relation fileName : Name) (file : Option DataFile) :
    Except Abort (Option (DataFile × Name × Int × Db × InsertFileScan)) := do
  if relation = [] ∨ fileName = [] ∨ relation = relCatName ∨ relation = attrCatName then return none
  let some fd := file | return none
  let (status,rd,db) ← RelCatalog.getInfo db relation ⟨[],0⟩
  if status ≠ .ok then return none
  let (status,attrs,db) ← AttrCatalog.getRelInfo db rd.relName
  if status ≠ .ok then return none
  let (status,iFile,db) ← db.newInsertFileScan rd.relName
  if status ≠ .ok then return none
  return some (fd,rd.relName,← recLen attrs,db,iFile)

-- A guard that a run has got past, with what it went on to.
structure Passed {α : Type} (c : Prop) (x : Except Abort α) (a : α) : Prop where
  held : ¬ c
  rest : x = .ok a

theorem passes {α : Type} {c : Prop} [Decidable c] {x y : Except Abort α} {a : α} (ran : (if c then y else x) = .ok a)
    (stops : y ≠ .ok a := by intro same; cases same) : Passed c x a := by
  by_cases held : c
  · rw [if_pos held] at ran
    exact absurd ran stops
  · rw [if_neg held] at ran
    exact ⟨held,ran⟩

section started

variable {atof : List UInt8 → List UInt8} {db db1 : Db} {source result : Name} {attrs : List AttrDesc}
  {s : HeapFileScan} {rel : InsertFileScan}

theorem ScanSelect_started {attrDesc : Option AttrDesc} {op : Operator} {filter : List UInt8}
    (reached : ScanSelect.start atof db result attrs attrDesc op filter = .ok (some (source,db1,s,rel))) (turns : Nat) :
    ScanSelect atof turns db result attrs attrDesc op filter = do
      let (status,hfs,rel,db) ← selectLoop source result attrs turns db1 s rel
      let (_,hfs,db) ← db.endScan source hfs
      let db ← db.deleteHeapFileScan source hfs
      return (status,← db.deleteInsertFileScan result rel) := by
  rw [ScanSelect.start] at reached
  rw [ScanSelect]
  cases head : attrs.head? with
  | none =>
    rw [head] at reached
    cases reached
  | some first =>
    rw [head] at reached
    dsimp only at reached ⊢
    obtain ⟨⟨status,s1,db2⟩,made,reached⟩ := of_bind_ok reached
    obtain ⟨opened,reached⟩ := passes reached
    obtain ⟨⟨statusT,rel1,db3⟩,madeT,reached⟩ := of_bind_ok reached
    obtain ⟨openedT,reached⟩ := passes reached
    obtain ⟨begun,reached⟩ := passes reached
    cases reached
    rw [made,ok_bind]
    dsimp only
    rw [if_neg opened,madeT,ok_bind]
    dsimp only
    rw [if_neg openedT,if_neg begun]

theorem QU_Select_started {infos : List AttrInfo} {attr : Option AttrInfo} {op : Operator} {attrValue : List UInt8}
    (reached : QU_Select.start atof db result infos attr op attrValue = .ok (some (attrs,source,db1,s,rel)))
    (turns : Nat) :
    QU_Select atof turns db result infos attr op attrValue = do
      let (status,hfs,rel,db) ← selectLoop source result attrs turns db1 s rel
      let (_,hfs,db) ← db.endScan source hfs
      let db ← db.deleteHeapFileScan source hfs
      return (status,← db.deleteInsertFileScan result rel) := by
  rw [QU_Select.start] at reached
  rw [QU_Select]
  obtain ⟨⟨status,descs,db2⟩,looked,reached⟩ := of_bind_ok reached
  obtain ⟨known,reached⟩ := passes reached
  rw [looked,ok_bind]
  dsimp only
  rw [if_neg known]
  cases attr with
  | none =>
    obtain ⟨total,counted,reached⟩ := of_bind_ok reached
    obtain ⟨scan,started,reached⟩ := of_bind_ok reached
    obtain ⟨found,rfl,same⟩ := Option.map_eq_some_iff.mp (Except.ok.inj reached)
    cases same
    dsimp only
    rw [counted,ok_bind]
    exact ScanSelect_started started turns
  | some attr =>
    obtain ⟨⟨status2,attrDesc,db3⟩,asked,reached⟩ := of_bind_ok reached
    obtain ⟨known2,reached⟩ := passes reached
    obtain ⟨total,counted,reached⟩ := of_bind_ok reached
    obtain ⟨scan,started,reached⟩ := of_bind_ok reached
    obtain ⟨found,rfl,same⟩ := Option.map_eq_some_iff.mp (Except.ok.inj reached)
    cases same
    dsimp only
    rw [asked,ok_bind]
    dsimp only
    rw [if_neg known2,counted,ok_bind]
    exact ScanSelect_started started turns

theorem QU_Delete_started {relation attrName : Name} {op : Operator} {type : Datatype} {attrValue : List UInt8}
    {attrDesc : AttrDesc}
    (reached : QU_Delete.start atof db relation attrName op type attrValue attrDesc = .ok (some (db1,s))) :
    QU_Delete atof db relation attrName op type attrValue attrDesc = do
      let (status,hfs,db) ← deleteLoop relation (db1.turns relation) db1 s
      if status ≠ .ok then return (status,db)
      let (_,hfs,db) ← db.endScan relation hfs
      return (.ok,← db.deleteHeapFileScan relation hfs) := by
  rw [QU_Delete.start] at reached
  rw [QU_Delete]
  obtain ⟨⟨status,hfs,db2⟩,made,reached⟩ := of_bind_ok reached
  obtain ⟨opened,reached⟩ := passes reached
  obtain ⟨⟨status2,d,db3⟩,asked,reached⟩ := of_bind_ok reached
  dsimp only at reached
  obtain ⟨begun,reached⟩ := passes reached
  obtain ⟨rfl,rfl⟩ := Prod.mk.inj (Option.some.inj (Except.ok.inj reached))
  rw [made,ok_bind]
  dsimp only
  rw [if_neg opened,asked,ok_bind]
  dsimp only
  rw [if_neg begun]

theorem joinOuter_started (outer result : Name) (attrs : List AttrDesc) {inner : Name} {d1 d2 : AttrDesc}
    {op : Operator} {rec : Record}
    (reached : joinOuter.start inner d1 d2 op db rec = .ok (some (db1,s))) (turns : Nat) (rel : InsertFileScan) :
    joinOuter outer inner result attrs d1 d2 op turns db rec rel = do
      let (innerScan,rel,db) ← innerLoop inner result outer attrs rec turns db1 s rel
      return (.ok,rel,← db.deleteHeapFileScan inner innerScan) := by
  rw [joinOuter.start] at reached
  rw [joinOuter]
  obtain ⟨⟨status,hfs,db2⟩,made,reached⟩ := of_bind_ok reached
  obtain ⟨opened,reached⟩ := passes reached
  dsimp only at reached
  obtain ⟨begun,reached⟩ := passes reached
  obtain ⟨inside,reached⟩ := passes reached
  obtain ⟨rfl,rfl⟩ := Prod.mk.inj (Option.some.inj (Except.ok.inj reached))
  rw [made,ok_bind]
  dsimp only
  rw [if_neg opened,if_neg begun,if_neg inside]

theorem QU_NL_Join_started {infos : List AttrInfo} {attr1 attr2 : AttrInfo} {d1 d2 : AttrDesc}
    (reached : QU_NL_Join.start db result infos attr1 attr2 = .ok (some (attrs,d1,d2,db1,s,rel))) (op : Operator)
    (turns : Nat) :
    QU_NL_Join turns db result infos attr1 op attr2 = do
      let (status,outerScan,rel,db) ← outerLoop d1.relName d2.relName result attrs d1 d2 op turns turns db1 s rel
      let db ← db.deleteHeapFileScan d1.relName outerScan
      return (status,← db.deleteInsertFileScan result rel) := by
  rw [QU_NL_Join.start] at reached
  rw [QU_NL_Join]
  obtain ⟨typed,reached⟩ := passes reached
  obtain ⟨⟨status,descs,db2⟩,looked,reached⟩ := of_bind_ok reached
  obtain ⟨known,reached⟩ := passes reached
  obtain ⟨⟨status1,desc1,db3⟩,asked1,reached⟩ := of_bind_ok reached
  obtain ⟨known1,reached⟩ := passes reached
  obtain ⟨⟨status2,desc2,db4⟩,asked2,reached⟩ := of_bind_ok reached
  obtain ⟨known2,reached⟩ := passes reached
  obtain ⟨total,counted,reached⟩ := of_bind_ok reached
  obtain ⟨⟨statusT,rel1,db5⟩,madeT,reached⟩ := of_bind_ok reached
  obtain ⟨openedT,reached⟩ := passes reached
  obtain ⟨⟨statusO,outerScan,db6⟩,made,reached⟩ := of_bind_ok reached
  obtain ⟨opened,reached⟩ := passes reached
  cases reached
  rw [if_neg typed,looked,ok_bind]
  dsimp only
  rw [if_neg known,asked1,ok_bind]
  dsimp only
  rw [if_neg known1,asked2,ok_bind]
  dsimp only
  rw [if_neg known2,counted,ok_bind,joinScan,madeT,ok_bind]
  dsimp only
  rw [if_neg openedT,made,ok_bind]
  dsimp only
  rw [if_neg opened]

theorem UT_Load_started {relation fileName relName : Name} {file : Option DataFile} {fd : DataFile} {width : Int}
    {iFile : InsertFileScan}
    (reached : UT_Load.start db relation fileName file = .ok (some (fd,relName,width,db1,iFile))) (turns : Nat) :
    UT_Load turns db relation fileName file = do
      let (status,iFile,db) ← loadLoop fd.reads relName width turns 0 db1 iFile
      if status ≠ .ok then return (status,db)
      let db ← db.deleteInsertFileScan relName iFile
      if fd.closes then return (.ok,db) else return (.unixErr,db) := by
  unfold UT_Load.start at reached
  unfold UT_Load
  obtain ⟨named,reached⟩ := passes reached
  rw [if_neg named]
  cases file with
  | none => cases reached
  | some file =>
    dsimp only at reached ⊢
    obtain ⟨⟨status,rd,db2⟩,asked,reached⟩ := of_bind_ok reached
    obtain ⟨known,reached⟩ := passes reached
    obtain ⟨⟨status2,descs,db3⟩,listed,reached⟩ := of_bind_ok reached
    obtain ⟨known2,reached⟩ := passes reached
    obtain ⟨⟨status3,iFile1,db4⟩,made,reached⟩ := of_bind_ok reached
    obtain ⟨opened,reached⟩ := passes reached
    obtain ⟨total,counted,reached⟩ := of_bind_ok reached
    cases reached
    rw [asked,ok_bind]
    dsimp only
    rw [if_neg known,listed,ok_bind]
    dsimp only
    rw [if_neg known2,made,ok_bind]
    dsimp only
    rw [if_neg opened,counted,ok_bind]

end started

-- With what scanNext ended the scans of an operator's input in a run, those of the inner relation
-- of a join too.
def selectEnds (atof : List UInt8 → List UInt8) (turns : Nat) (db : Db) (result : Name) (projNames : List AttrInfo)
    (attr : Option AttrInfo)
    (op : Operator) (attrValue : List UInt8) : List Status :=
  match QU_Select.start atof db result projNames attr op attrValue with
  | .ok (some (descs,source,db,hfs,rel)) => (selectTurns source result descs).ends (fun _ => []) turns (db,hfs,rel)
  | _ => []

def deleteEnds (atof : List UInt8 → List UInt8) (db : Db) (relation attrName : Name) (op : Operator) (type : Datatype)
    (attrValue : List UInt8) (attrDesc : AttrDesc) : List Status :=
  match QU_Delete.start atof db relation attrName op type attrValue attrDesc with
  | .ok (some (db,hfs)) => (deleteTurns relation).ends (fun _ => []) (db.turns relation) (db,hfs)
  | _ => []

def innerEnds (outer inner result : Name) (descs : List AttrDesc) (d1 d2 : AttrDesc) (op : Operator) (turns : Nat) :
    Db × HeapFileScan × InsertFileScan → List Status := fun (db,outerScan,rel) =>
  match db.getRecord outer outerScan with
  | .ok (.ok outerRec) =>
    match joinOuter.start inner d1 d2 op db outerRec with
    | .ok (some (db,innerScan)) =>
      (innerTurns inner result outer descs outerRec).ends (fun _ => []) turns (db,innerScan,rel)
    | _ => []
  | _ => []

def joinEnds (turns : Nat) (db : Db) (result : Name) (projNames : List AttrInfo) (attr1 : AttrInfo)
    (op : Operator) (attr2 : AttrInfo) :
    List Status :=
  match QU_NL_Join.start db result projNames attr1 attr2 with
  | .ok (some (descs,d1,d2,db,outerScan,rel)) =>
    (outerTurns d1.relName d2.relName result descs d1 d2 op turns).ends
      (innerEnds d1.relName d2.relName result descs d1 d2 op turns) turns (db,outerScan,rel)
  | _ => []

-- And what read gave last in a run of UT_Load: at the end of the file that is no bytes.
def loadEnds (turns : Nat) (db : Db) (relation fileName : Name) (file : Option DataFile) : List (Option (List UInt8)) :=
  match UT_Load.start db relation fileName file with
  | .ok (some (fd,relName,width,db,iFile)) => (loadTurns fd.reads relName width).ends (fun _ => []) turns (0,db,iFile)
  | _ => []

-- With what scanNext ended the scan of a look-up in a catalog; OK when it stood on the row asked for.
def rowsEnds {α : Type} (db : Db) (catalog relation : Name) (size : Nat) (visit : α → List UInt8 → α × Bool) (a : α) :
    List Status :=
  match openRows db catalog relation with
  | .ok (.ok,hfs,db) =>
    match scanRows catalog size visit (db.turns catalog) db hfs a with
    | .ok (.ok status,_) => [status]
    | _ => []
  | _ => []

def RelCatalog.infoEnds (db : Db) (relation : Name) (record : RelDesc) : List Status :=
  if relation = [] then [] else rowsEnds db relCatName relation RelDesc.size takeFirst record

def AttrCatalog.infoEnds (db : Db) (relation attrName : Name) (record : AttrDesc) : List Status :=
  if relation = [] ∨ attrName = [] then [] else rowsEnds db attrCatName relation AttrDesc.size
    (takeNamed attrName) record

def AttrCatalog.relInfoEnds (db : Db) (relation : Name) : List Status :=
  if relation = [] then [] else rowsEnds db attrCatName relation AttrDesc.size takeAll []

def projEnds : Db → List AttrInfo → List Status
  | _,[] => []
  | db,p::ps => AttrCatalog.infoEnds db p.relName p.attrName ⟨[],[],0,0,0⟩ ++
    match AttrCatalog.getInfo db p.relName p.attrName ⟨[],[],0,0,0⟩ with
    | .ok (.ok,_,db) => projEnds db ps
    | _ => []

-- The look-ups of each operator.
def selectLookups (db : Db) (projNames : List AttrInfo) (attr : Option AttrInfo) :
    List Status := projEnds db (projNames ++ attr.toList)

def deleteLookups (db : Db) (relation attrName : Name) (attrDesc : AttrDesc) : List Status :=
  match db.newHeapFileScan relation with
  | .ok (.ok,_,db) => AttrCatalog.infoEnds db relation attrName attrDesc
  | _ => []

def joinLookups (db : Db) (projNames : List AttrInfo) (attr1 attr2 : AttrInfo) : List Status :=
  if attr1.attrType ≠ attr2.attrType ∨ attr1.attrLen ≠ attr2.attrLen then [] else projEnds db
    (projNames ++ [attr1,attr2])

def loadLookups (db : Db) (relation fileName : Name) (file : Option DataFile) : List Status :=
  if relation = [] ∨ fileName = [] ∨ relation = relCatName ∨ relation = attrCatName ∨ file = none then []
  else RelCatalog.infoEnds db relation ⟨[],0⟩ ++
    match RelCatalog.getInfo db relation ⟨[],0⟩ with
    | .ok (.ok,rd,db) => AttrCatalog.relInfoEnds db rd.relName
    | _ => []

-- The descriptor with which QU_Delete goes on after its look-up.
def deleteLooked (db : Db) (relation attrName : Name) (attrDesc : AttrDesc) : AttrDesc :=
  match db.newHeapFileScan relation with
  | .ok (.ok,_,db) =>
    match AttrCatalog.getInfo db relation attrName attrDesc with
    | .ok (_,attrDesc,_) => attrDesc
    | _ => attrDesc
  | _ => attrDesc

-- One of these scans ended with neither success nor the end of its file.
structure Cut (ends : List Status) : Prop where
  short : ∃ e ∈ ends, e ≠ .ok ∧ e ≠ .fileEof

theorem Cut.ne_nil {ends : List Status} (cut : Cut ends) : ends ≠ [] := by
  obtain ⟨e,member,_⟩ := cut.short
  exact List.ne_nil_of_mem member

theorem Cut.append {ends ends' : List Status} : Cut (ends ++ ends') ↔ Cut ends ∨ Cut ends' := by
  constructor
  · rintro ⟨e,member,failed⟩
    exact (List.mem_append.mp member).imp (fun here => ⟨e,here,failed⟩) (fun here => ⟨e,here,failed⟩)
  · rintro (⟨e,member,failed⟩ | ⟨e,member,failed⟩)
    · exact ⟨e,List.mem_append_left _ member,failed⟩
    · exact ⟨e,List.mem_append_right _ member,failed⟩

section present

variable {db db1 db' : Db} {name other catalog relation : Name} {b : Pool} {status e : Status} {s : HeapFileScan}

def Db.Present (db : Db) (name : Name) : Prop := ∃ b, db.files name = some b

theorem present_setPool (db : Db) (name : Name) (b : Pool) : (db.setPool name b).Present name := ⟨b,Db.setPool_same ..⟩

theorem Db.Present.put (there : db.Present name) (other : Name) (b : Pool) : (db.setPool other b).Present name := by
  by_cases here : name = other
  · rw [here]
    exact present_setPool ..
  · obtain ⟨b',found⟩ := there
    exact ⟨b',by rw [Db.setPool_other _ here,found]⟩

theorem scanNext_put {s' : HeapFileScan} {result : Except Status RID} (ran : db.scanNext name s = .ok (result,s',db')) :
    ∃ b, db' = db.setPool name b := by
  obtain ⟨b,_,ran⟩ := of_bind_ok ran
  obtain ⟨⟨result1,s1,b1⟩,_,ran⟩ := of_bind_ok ran
  cases ran
  exact ⟨b1,rfl⟩

theorem scanTurn_put {s' : HeapFileScan} {next : Option Status} (ran : scanTurn db name s = .ok (next,s',db')) :
    ∃ b, db' = db.setPool name b := by
  obtain ⟨⟨result,s1,db1⟩,ran,same⟩ := of_bind_ok ran
  cases same
  exact scanNext_put ran

theorem insertRecord_put {rel rel' : InsertFileScan} {rec : Record} {result : Except Status RID}
    (ran : db.insertRecord name rel rec = .ok (result,rel',db')) : ∃ b, db' = db.setPool name b := by
  obtain ⟨b,_,ran⟩ := of_bind_ok ran
  obtain ⟨⟨result1,s1,b1⟩,_,ran⟩ := of_bind_ok ran
  cases ran
  exact ⟨b1,rfl⟩

theorem Db.Present.endScan (there : db.Present name) (s : HeapFileScan) :
    ∃ status s' b, db.endScan name s = .ok (status,s',db.setPool name b) := by
  obtain ⟨b,found⟩ := there
  rw [Db.endScan,Db.pool_found found]
  exact ⟨_,_,_,rfl⟩

theorem Db.Present.deleteScan (there : db.Present name) (s : HeapFileScan) :
    ∃ b, db.deleteHeapFileScan name s = .ok (db.setPool name b) := by
  obtain ⟨b,found⟩ := there
  rw [Db.deleteHeapFileScan,Db.pool_found found]
  exact ⟨_,rfl⟩

theorem Db.Present.deleteInsert (there : db.Present name) (rel : InsertFileScan) :
    ∃ b, db.deleteInsertFileScan name rel = .ok (db.setPool name b) := by
  obtain ⟨b,found⟩ := there
  rw [Db.deleteInsertFileScan,Db.pool_found found]
  exact ⟨_,rfl⟩

theorem newInsertFileScan_present {iFile : InsertFileScan} (made : db.newInsertFileScan name = .ok (.ok,iFile,db1)) :
    db1.Present name := by
  unfold Db.newInsertFileScan at made
  split at made
  · obtain ⟨b,_,made⟩ := of_bind_ok made
    obtain ⟨⟨status,s,b1⟩,_,made⟩ := of_bind_ok made
    cases made
    exact present_setPool ..
  · rename_i status db2 other opened
    split at made
    · obtain ⟨rfl,_⟩ := Prod.mk.inj (Except.ok.inj made)
      exact (other rfl).elim
    · cases made

theorem scanRows_present {α : Type} {size : Nat} {visit : α → List UInt8 → α × Bool} {turns : Nat} {a a' : α}
    {hfs hfs' : HeapFileScan}
    (ran : scanRows catalog size visit turns db hfs a = .ok (.ok status,a',hfs',db')) : db'.Present catalog := by
  induction turns generalizing db hfs a with
  | zero => cases ran
  | succ turns ih =>
    obtain ⟨⟨result,hfs1,db1⟩,next,ran⟩ := of_bind_ok ran
    obtain ⟨b,rfl⟩ := scanNext_put next
    cases result with
    | error status =>
      cases ran
      exact present_setPool ..
    | ok rid =>
      obtain ⟨read,_,ran⟩ := of_bind_ok ran
      cases read with
      | error status => cases ran
      | ok rec =>
        obtain ⟨_,ran⟩ := passes ran
        dsimp only at ran
        split at ran
        · cases ran
          exact present_setPool ..
        · exact ih ran

-- After an error of scanNext, endScan has no say in what the look-up returns.
theorem closeRows_failed (there : db.Present catalog) (s : HeapFileScan) (failed : status ≠ .ok) :
    ∃ db', closeRows db catalog s status = .ok (status,db') := by
  obtain ⟨next,s1,b1,ended⟩ := there.endScan s
  obtain ⟨b2,deleted⟩ := (present_setPool db catalog b1).deleteScan s1
  refine ⟨(db.setPool catalog b1).setPool catalog b2,?_⟩
  rw [closeRows,ended,ok_bind]
  dsimp only
  rw [deleted,if_neg failed]
  rfl

theorem rowsEnds_mem {α : Type} {size : Nat} {visit : α → List UInt8 → α × Bool} {a : α}
    (member : e ∈ rowsEnds db catalog relation size visit a) :
    ∃ hfs db1 a' hfs' db', openRows db catalog relation = .ok (.ok,hfs,db1) ∧
      scanRows catalog size visit (db1.turns catalog) db1 hfs a = .ok (.ok e,a',hfs',db') ∧ db'.Present catalog := by
  unfold rowsEnds at member
  split at member
  · rename_i hfs db1 opened
    split at member
    · rename_i status rest scanned
      obtain rfl := List.mem_singleton.mp member
      obtain ⟨a',hfs',db'⟩ := rest
      exact ⟨hfs,db1,a',hfs',db',opened,scanned,scanRows_present scanned⟩
    · cases member
  · cases member

end present

section lookups

variable {db : Db} {relation attrName : Name} {e : Status}

theorem AttrCatalog.getInfo_cut {record : AttrDesc} (member : e ∈ AttrCatalog.infoEnds db relation attrName record)
    (failed : e ≠ .ok)
    (early : e ≠ .fileEof) : ∃ d db', AttrCatalog.getInfo db relation attrName record = .ok (e,d,db') := by
  unfold AttrCatalog.infoEnds at member
  split at member
  · cases member
  rename_i named
  obtain ⟨hfs,db1,d,hfs',db2,opened,scanned,there⟩ := rowsEnds_mem member
  obtain ⟨db3,closed⟩ := closeRows_failed there hfs' failed
  refine ⟨d,db3,?_⟩
  rw [AttrCatalog.getInfo,if_neg named,opened,ok_bind]
  dsimp only
  rw [if_neg (not_not_intro rfl),scanned,ok_bind]
  dsimp only
  rw [if_neg early,closed]
  rfl

theorem AttrCatalog.getRelInfo_cut (member : e ∈ AttrCatalog.relInfoEnds db relation) (failed : e ≠ .ok)
    (early : e ≠ .fileEof) :
    ∃ attrs db', AttrCatalog.getRelInfo db relation = .ok (e,attrs,db') := by
  unfold AttrCatalog.relInfoEnds at member
  split at member
  · cases member
  rename_i named
  obtain ⟨hfs,db1,attrs,hfs',db2,opened,scanned,there⟩ := rowsEnds_mem member
  obtain ⟨db3,closed⟩ := closeRows_failed there hfs' failed
  refine ⟨attrs,db3,?_⟩
  rw [AttrCatalog.getRelInfo,if_neg named,opened,ok_bind]
  dsimp only
  rw [if_neg (not_not_intro rfl),scanned,ok_bind]
  dsimp only
  rw [if_neg early,closed]
  rfl

theorem RelCatalog.getInfo_cut {record : RelDesc} (member : e ∈ RelCatalog.infoEnds db relation record)
    (failed : e ≠ .ok)
    (early : e ≠ .fileEof) : ∃ rd db', RelCatalog.getInfo db relation record = .ok (e,rd,db') := by
  unfold RelCatalog.infoEnds at member
  split at member
  · cases member
  rename_i named
  obtain ⟨hfs,db1,rd,hfs',db2,opened,scanned,there⟩ := rowsEnds_mem member
  obtain ⟨db3,closed⟩ := closeRows_failed there hfs' failed
  refine ⟨rd,db3,?_⟩
  rw [RelCatalog.getInfo,if_neg named,opened,ok_bind]
  dsimp only
  rw [if_neg (not_not_intro rfl),scanned,ok_bind]
  dsimp only
  rw [if_neg early,closed]
  rfl

theorem projDescs_cut {ps : List AttrInfo} (member : e ∈ projEnds db ps) (failed : e ≠ .ok) (early : e ≠ .fileEof) :
    ∃ ds db', projDescs db ps = .ok (e,ds,db') := by
  induction ps generalizing db with
  | nil => cases member
  | cons p ps ih =>
    rw [projEnds] at member
    rw [projDescs]
    rcases List.mem_append.mp member with here | later
    · obtain ⟨d,db1,asked⟩ := AttrCatalog.getInfo_cut here failed early
      refine ⟨[],db1,?_⟩
      rw [asked,ok_bind]
      dsimp only
      rw [if_pos failed]
      rfl
    · split at later
      · rename_i d db1 asked
        obtain ⟨ds,db2,looked⟩ := ih later
        refine ⟨d::ds,db2,?_⟩
        rw [asked,ok_bind]
        dsimp only
        rw [if_neg (not_not_intro rfl),looked]
        rfl
      · cases later

theorem projEnds_append {ps qs : List AttrInfo} (member : e ∈ projEnds db (ps ++ qs)) :
    e ∈ projEnds db ps ∨ ∃ ds db', projDescs db ps = .ok (.ok,ds,db') ∧ e ∈ projEnds db' qs := by
  induction ps generalizing db with
  | nil => exact .inr ⟨[],db,rfl,member⟩
  | cons p ps ih =>
    rw [List.cons_append,projEnds] at member
    rw [projEnds,projDescs]
    rcases List.mem_append.mp member with here | later
    · exact .inl (List.mem_append_left _ here)
    · split at later
      · rename_i d db1 asked
        rcases ih later with here | ⟨ds,db2,looked,after⟩
        · exact .inl (List.mem_append_right _ here)
        · refine .inr ⟨d::ds,db2,?_,after⟩
          rw [asked,ok_bind]
          dsimp only
          rw [if_neg (not_not_intro rfl),looked]
          rfl
      · cases later

-- QU_Select, QU_NL_Join and UT_Load return what a look-up has failed with.
theorem select_lookups (atof : List UInt8 → List UInt8) (turns : Nat) (result : Name) (projNames : List AttrInfo)
    (attr : Option AttrInfo)
    (op : Operator) (attrValue : List UInt8) (cut : Cut (selectLookups db projNames attr)) :
    ∃ status db', QU_Select atof turns db result projNames attr op attrValue = .ok (status,db') ∧ status ≠ .ok := by
  obtain ⟨e,member,failed,early⟩ := cut.short
  rw [QU_Select]
  rcases projEnds_append member with here | ⟨ds,db1,looked,later⟩
  · obtain ⟨ds,db1,looked⟩ := projDescs_cut here failed early
    refine ⟨e,db1,?_,failed⟩
    rw [looked,ok_bind]
    dsimp only
    rw [if_pos failed]
    rfl
  · cases attr with
    | none => cases later
    | some attr =>
      rw [Option.toList_some,projEnds] at later
      rcases List.mem_append.mp later with here | nothing
      · obtain ⟨d,db2,asked⟩ := AttrCatalog.getInfo_cut here failed early
        refine ⟨e,db2,?_,failed⟩
        rw [looked,ok_bind]
        dsimp only
        rw [if_neg (not_not_intro rfl),asked,ok_bind]
        dsimp only
        rw [if_pos failed]
        rfl
      · split at nothing <;> cases nothing

theorem join_lookups (turns : Nat) (result : Name) (projNames : List AttrInfo) (attr1 : AttrInfo) (op : Operator)
    (attr2 : AttrInfo)
    (cut : Cut (joinLookups db projNames attr1 attr2)) :
    ∃ status db', QU_NL_Join turns db result projNames attr1 op attr2 = .ok (status,db') ∧ status ≠ .ok := by
  obtain ⟨e,member,failed,early⟩ := cut.short
  unfold joinLookups at member
  split at member
  · cases member
  rename_i typed
  rw [QU_NL_Join,if_neg typed]
  rcases projEnds_append member with here | ⟨ds,db1,looked,later⟩
  · obtain ⟨ds,db1,looked⟩ := projDescs_cut here failed early
    refine ⟨e,db1,?_,failed⟩
    rw [looked,ok_bind]
    dsimp only
    rw [if_pos failed]
    rfl
  rw [looked,ok_bind]
  dsimp only
  rw [if_neg (not_not_intro rfl)]
  rw [projEnds] at later
  rcases List.mem_append.mp later with here | later
  · obtain ⟨d,db2,asked⟩ := AttrCatalog.getInfo_cut here failed early
    refine ⟨e,db2,?_,failed⟩
    rw [asked,ok_bind]
    dsimp only
    rw [if_pos failed]
    rfl
  split at later
  · rename_i d1 db2 asked1
    rw [asked1,ok_bind]
    dsimp only
    rw [if_neg (not_not_intro rfl)]
    rw [projEnds] at later
    rcases List.mem_append.mp later with here | nothing
    · obtain ⟨d,db3,asked⟩ := AttrCatalog.getInfo_cut here failed early
      refine ⟨e,db3,?_,failed⟩
      rw [asked,ok_bind]
      dsimp only
      rw [if_pos failed]
      rfl
    · split at nothing <;> cases nothing
  · cases later

theorem load_lookups (turns : Nat) {fileName : Name} {file : Option DataFile}
    (cut : Cut (loadLookups db relation fileName file)) :
    ∃ status db', UT_Load turns db relation fileName file = .ok (status,db') ∧ status ≠ .ok := by
  obtain ⟨e,member,failed,early⟩ := cut.short
  unfold loadLookups at member
  split at member
  · cases member
  rename_i parm
  simp only [not_or] at parm
  obtain ⟨given,file_given,not_rel,not_attr,opened⟩ := parm
  obtain ⟨fd,rfl⟩ := Option.ne_none_iff_exists'.mp opened
  rw [UT_Load,if_neg (by simp [given,file_given,not_rel,not_attr])]
  dsimp only
  rcases List.mem_append.mp member with here | later
  · obtain ⟨rd,db1,asked⟩ := RelCatalog.getInfo_cut here failed early
    refine ⟨e,db1,?_,failed⟩
    rw [asked,ok_bind]
    dsimp only
    rw [if_pos failed]
    rfl
  split at later
  · rename_i rd db1 asked
    obtain ⟨attrs,db2,listed⟩ := AttrCatalog.getRelInfo_cut later failed early
    refine ⟨e,db2,?_,failed⟩
    rw [asked,ok_bind]
    dsimp only
    rw [if_neg (not_not_intro rfl),listed,ok_bind]
    dsimp only
    rw [if_pos failed]
    rfl
  · cases later

end lookups

section loops

variable {atof : List UInt8 → List UInt8} {db db1 db' : Db} {source result : Name} {descs : List AttrDesc}
  {s : HeapFileScan}
  {rel : InsertFileScan} {status : Status}

theorem ScanSelect_opened_result {attrDesc : Option AttrDesc} {op : Operator} {filter : List UInt8}
    (reached : ScanSelect.start atof db result descs attrDesc op filter = .ok (some (source,db1,s,rel))) :
    db1.Present result := by
  rw [ScanSelect.start] at reached
  cases head : descs.head? with
  | none =>
    rw [head] at reached
    cases reached
  | some first =>
    rw [head] at reached
    obtain ⟨⟨status,s1,db2⟩,_,reached⟩ := of_bind_ok reached
    obtain ⟨_,reached⟩ := passes reached
    obtain ⟨⟨statusT,rel1,db3⟩,madeT,reached⟩ := of_bind_ok reached
    obtain ⟨openedT,reached⟩ := passes reached
    obtain ⟨_,reached⟩ := passes reached
    cases reached
    cases not_not.mp openedT
    exact newInsertFileScan_present madeT

theorem QU_Select_opened_result {infos : List AttrInfo} {attr : Option AttrInfo} {op : Operator}
    {attrValue : List UInt8}
    (reached : QU_Select.start atof db result infos attr op attrValue = .ok (some (descs,source,db1,s,rel))) :
    db1.Present result := by
  rw [QU_Select.start] at reached
  obtain ⟨⟨status,descs1,db2⟩,_,reached⟩ := of_bind_ok reached
  obtain ⟨_,reached⟩ := passes reached
  cases attr with
  | none =>
    obtain ⟨total,_,reached⟩ := of_bind_ok reached
    obtain ⟨scan,started,reached⟩ := of_bind_ok reached
    obtain ⟨found,rfl,same⟩ := Option.map_eq_some_iff.mp (Except.ok.inj reached)
    cases same
    exact ScanSelect_opened_result started
  | some attr =>
    obtain ⟨⟨status2,attrDesc,db3⟩,_,reached⟩ := of_bind_ok reached
    obtain ⟨_,reached⟩ := passes reached
    obtain ⟨total,_,reached⟩ := of_bind_ok reached
    obtain ⟨scan,started,reached⟩ := of_bind_ok reached
    obtain ⟨found,rfl,same⟩ := Option.map_eq_some_iff.mp (Except.ok.inj reached)
    cases same
    exact ScanSelect_opened_result started

-- Once its loop is over, whatever ended it, QU_Select returns OK.
theorem select_ended (turns : Nat) (projNames : List AttrInfo) (attr : Option AttrInfo) (op : Operator)
    (attrValue : List UInt8)
    (ended : selectEnds atof turns db result projNames attr op attrValue ≠ []) :
    ∃ db', QU_Select atof turns db result projNames attr op attrValue = .ok (.ok,db') := by
  unfold selectEnds at ended
  split at ended
  · rename_i descs source db1 hfs rel reached
    obtain ⟨⟨db0,hfs0,rel0⟩,last,⟨db2,hfs2,rel2⟩,next,looped⟩ :=
      Loop.run_of_ends .ok .diverges turns (fun _ => rfl) ended
    -- the result was opened before the loop, the source has just been read
    have there : db2.Present result := by
      refine Loop.run_invariant (fun s => s.1.Present result) turns ?_ ?_ (QU_Select_opened_result reached) looped
      · intro ⟨db3,hfs3,rel3⟩ e ⟨db4,hfs4,rel4⟩ there next
        obtain ⟨⟨e',hfs5,db5⟩,moved,same⟩ := of_bind_ok next
        cases same
        obtain ⟨b,rfl⟩ := scanTurn_put moved
        exact there.put source b
      · intro ⟨db3,hfs3,rel3⟩ failed ⟨db4,hfs4,rel4⟩ there body
        obtain ⟨read,_,body⟩ := of_bind_ok body
        cases read with
        | error status =>
          cases body
          exact there
        | ok rec =>
          obtain ⟨data,_,body⟩ := of_bind_ok body
          obtain ⟨⟨inserted,rel5,db5⟩,ran,body⟩ := of_bind_ok body
          obtain ⟨b,rfl⟩ := insertRecord_put ran
          cases body
          exact present_setPool ..
    obtain ⟨⟨e,hfs3,db3⟩,moved,same⟩ := of_bind_ok next
    cases same
    obtain ⟨b,rfl⟩ := scanTurn_put moved
    have scanned := present_setPool db0 source b
    obtain ⟨status3,hfs3,b3,ended3⟩ := scanned.endScan hfs2
    obtain ⟨b4,deleted⟩ := (present_setPool (db0.setPool source b) source b3).deleteScan hfs3
    obtain ⟨b5,closed⟩ := ((there.put source b3).put source b4).deleteInsert rel0
    refine ⟨(((db0.setPool source b).setPool source b3).setPool source b4).setPool result b5,?_⟩
    rw [QU_Select_started reached turns,selectLoop_turns]
    simp only [looped,ok_bind,pure_ok,ended3,deleted,closed]
  · exact absurd rfl ended

end loops

section current

variable {b b' : Pool} {s s' : HeapFileScan} {db db1 db' : Db} {name : Name} {rid : RID} {status : Status}

-- A scan that has found a record stands on one that its page still has.
structure HeapFileScan.OnRecord (b : Pool) (s : HeapFileScan) : Prop where
  held : ∃ page rec, b.deref s.curPage = .ok page ∧ page.getRecord s.curRec = .ok rec

theorem HeapFileScan.nextRecords_onRecord {turns : Nat} (found : nextRecords turns b s = .ok (.ok rid,s',b')) :
    OnRecord b' s' := by
  induction turns generalizing b s with
  | zero => cases found
  | succ turns ih =>
    obtain ⟨⟨moved,s1,b1⟩,_,found⟩ := of_bind_ok found
    cases moved with
    | error status => cases found
    | ok _ =>
      obtain ⟨page,read,found⟩ := of_bind_ok found
      cases got : page.getRecord s1.curRec with
      | error status =>
        rw [got] at found
        cases found
      | ok rec =>
        rw [got] at found
        dsimp only at found
        split at found
        · cases found
          exact ⟨⟨page,rec,read,got⟩⟩
        · exact ih found

theorem HeapFileScan.scanNext_onRecord (found : scanNext b s = .ok (.ok rid,s',b')) : OnRecord b' s' := by
  unfold scanNext at found
  split at found
  · cases found
  split at found
  · unfold scanFirst at found
    obtain ⟨header,_,found⟩ := of_bind_ok found
    obtain ⟨_,found⟩ := passes found
    dsimp only at found
    obtain ⟨_,found⟩ := passes found
    obtain ⟨page,read,found⟩ := of_bind_ok found
    split at found
    · split at found <;> cases found
    · rename_i first begun
      cases got : page.getRecord first with
      | error status =>
        rw [got] at found
        cases found
      | ok rec =>
        rw [got] at found
        dsimp only at found
        split at found
        · cases found
          exact ⟨⟨page,rec,read,got⟩⟩
        · exact nextRecords_onRecord found
  · exact nextRecords_onRecord found

theorem Page.deleteRecord_of_getRecord {p : Page} {rid : RID} {rec : Record} (got : p.getRecord rid = .ok rec) :
    (p.deleteRecord rid).1 = .ok := by
  unfold Page.getRecord at got
  split at got
  · rename_i live
    unfold Page.deleteRecord
    dsimp only
    rw [if_pos live]
    split <;> rfl
  · cases got

-- So deleteRecord does not fail in a loop that scanNext leads.
theorem deleteTurns_sure (relation : Name) :
    ∀ s s1 failed s', (deleteTurns relation).next s = .ok (none,s1) →
      (deleteTurns relation).body s1 ≠ .ok (some failed,s') := by
  intro ⟨db,hfs⟩ ⟨db1,hfs1⟩ failed ⟨db2,hfs2⟩ next body
  obtain ⟨⟨result,hfs3,db3⟩,moved,next⟩ := of_bind_ok next
  obtain ⟨⟨result',hfs4,db4⟩,ran,moved⟩ := of_bind_ok moved
  cases result' with
  | error status =>
    cases moved
    cases next
  | ok rid =>
    cases moved
    cases next
    obtain ⟨b,_,ran⟩ := of_bind_ok ran
    obtain ⟨⟨result5,hfs5,b5⟩,found,ran⟩ := of_bind_ok ran
    cases ran
    obtain ⟨page,rec,read,got⟩ := (HeapFileScan.scanNext_onRecord found).held
    obtain ⟨⟨status,hfs6,db6⟩,removed,body⟩ := of_bind_ok body
    obtain ⟨b6,there,removed⟩ := of_bind_ok removed
    rw [Db.pool_setPool] at there
    cases there
    obtain ⟨⟨status7,hfs7,b7⟩,gone,removed⟩ := of_bind_ok removed
    unfold HeapFileScan.deleteRecord at gone
    rw [read,ok_bind] at gone
    dsimp only at gone
    obtain ⟨header,_,gone⟩ := of_bind_ok gone
    rw [Page.deleteRecord_of_getRecord got] at gone
    cases gone
    cases removed
    cases body

end current

section loops

variable {atof : List UInt8 → List UInt8} {db db1 db' : Db} {source result : Name} {descs : List AttrDesc}
  {s : HeapFileScan}
  {rel : InsertFileScan} {status : Status}

theorem delete_ended {relation attrName : Name} {op : Operator} {type : Datatype} {attrValue : List UInt8}
    {attrDesc : AttrDesc}
    (ended : deleteEnds atof db relation attrName op type attrValue attrDesc ≠ []) :
    ∃ db', QU_Delete atof db relation attrName op type attrValue attrDesc = .ok (.ok,db') := by
  unfold deleteEnds at ended
  split at ended
  · rename_i db1 hfs reached
    obtain ⟨⟨db0,hfs0⟩,last,⟨db2,hfs2⟩,next,looped⟩ := Loop.run_of_ends .ok .diverges _ (fun _ => rfl) ended
    obtain ⟨⟨e,hfs3,db3⟩,moved,same⟩ := of_bind_ok next
    cases same
    obtain ⟨b,rfl⟩ := scanTurn_put moved
    obtain ⟨status3,hfs3,b3,ended3⟩ := (present_setPool db0 relation b).endScan hfs2
    obtain ⟨b4,deleted⟩ := (present_setPool (db0.setPool relation b) relation b3).deleteScan hfs3
    refine ⟨((db0.setPool relation b).setPool relation b3).setPool relation b4,?_⟩
    rw [QU_Delete_started reached,deleteLoop_turns]
    simp only [looped,ok_bind,pure_ok]
    rw [if_neg (not_not_intro rfl),ended3,ok_bind]
    dsimp only
    rw [deleted]
    rfl
  · exact absurd rfl ended

-- What QU_Delete returns hangs on the file and on what startScan says, and on nothing after that.
theorem delete_status {relation attrName : Name} {op : Operator} {type : Datatype} {attrValue : List UInt8}
    {attrDesc : AttrDesc}
    (made : db.newHeapFileScan relation = .ok (.ok,s,db1))
    (ran : QU_Delete atof db relation attrName op type attrValue attrDesc = .ok (status,db')) :
    status ≠ .ok ↔ attrName ≠ [] ∧ ¬ (deleteCondition atof (deleteLooked db relation attrName attrDesc) op
      type attrValue).Sound := by
  rw [QU_Delete,made,ok_bind] at ran
  dsimp only at ran
  rw [if_neg (not_not_intro rfl)] at ran
  obtain ⟨⟨looked,d,db2⟩,asked,ran⟩ := of_bind_ok ran
  have left : deleteLooked db relation attrName attrDesc = d := by
    unfold deleteLooked
    rw [made]
    dsimp only
    rw [asked]
  rw [left]
  dsimp only at ran
  -- after startScan nothing fails
  have goes : ∀ {s2 : HeapFileScan}, (do
      let (status,hfs,db) ← deleteLoop relation (db2.turns relation) db2 s2
      if status ≠ .ok then return (status,db)
      let (_,hfs,db) ← db.endScan relation hfs
      return (.ok,← db.deleteHeapFileScan relation hfs) : Except Abort (Status × Db)) = .ok (status,db') →
        status = .ok := by
    intro s2 goes
    rw [deleteLoop_turns] at goes
    obtain ⟨⟨status2,hfs2,db3⟩,looped,goes⟩ := of_bind_ok goes
    obtain ⟨⟨status3,db4,hfs3⟩,looped,same⟩ := of_bind_ok looped
    cases same
    cases Loop.run_unfailing _ (deleteTurns_sure relation) looped
    dsimp only at goes
    rw [if_neg (not_not_intro rfl)] at goes
    obtain ⟨⟨status4,hfs4,db5⟩,_,goes⟩ := of_bind_ok goes
    obtain ⟨db6,_,goes⟩ := of_bind_ok goes
    cases goes
    rfl
  by_cases all : attrName = []
  · rw [if_pos all] at ran
    have begun : s.startScan 0 0 (some .string) none .eq = (.ok,{s with filter := none}) := rfl
    rw [begun] at ran
    dsimp only at ran
    rw [if_neg (not_not_intro rfl)] at ran
    simp [goes ran,all]
  rw [if_neg all] at ran
  by_cases sound : (deleteCondition atof d op type attrValue).Sound
  · have begun := s.startScan_sound sound
    dsimp only [deleteCondition] at begun
    rw [begun] at ran
    dsimp only at ran
    rw [if_neg (not_not_intro rfl)] at ran
    simp [goes ran,sound]
  · have refused := s.startScan_unsound sound
    dsimp only [deleteCondition] at refused
    rw [refused] at ran
    dsimp only at ran
    rw [if_pos (by decide)] at ran
    obtain ⟨db3,_,ran⟩ := of_bind_ok ran
    cases ran
    simp [all,sound]

-- Whether startScan takes a condition does not depend on the scan or on the value compared with.
theorem startScan_status (s s' : HeapFileScan) (offset length : Int) (type : Option Datatype)
    (value value' : List UInt8) (op : Operator) :
    (s.startScan offset length type (some value) op).1 = (s'.startScan offset length type (some value') op).1 := by
  unfold HeapFileScan.startScan
  cases type with
  | none => rfl
  | some type =>
    dsimp only
    split <;> rfl

-- A turn of a join whose inner scan has come to an end, whatever ended it, is followed by the next.
theorem inner_goes_on {outer inner : Name} {d1 d2 : AttrDesc} {op : Operator} {turns : Nat}
    {t : Db × HeapFileScan × InsertFileScan}
    (ended : innerEnds outer inner result descs d1 d2 op turns t ≠ []) :
    ∃ t', (outerTurns outer inner result descs d1 d2 op turns).body t = .ok (none,t') := by
  obtain ⟨db,outerScan,rel⟩ := t
  unfold innerEnds at ended
  dsimp only at ended
  split at ended
  · rename_i outerRec read
    split at ended
    · rename_i db1 innerScan reached
      obtain ⟨⟨db0,innerScan0,rel0⟩,last,⟨db2,innerScan2,rel2⟩,next,looped⟩ :=
        Loop.run_of_ends .ok .diverges turns (fun _ => rfl) ended
      obtain ⟨⟨e,innerScan3,db3⟩,moved,same⟩ := of_bind_ok next
      cases same
      obtain ⟨b,rfl⟩ := scanTurn_put moved
      obtain ⟨b4,deleted⟩ := (present_setPool db0 inner b).deleteScan innerScan2
      have joined := joinOuter_started outer result descs reached turns rel
      rw [innerLoop_turns,looped] at joined
      simp only [ok_bind,pure_ok,deleted] at joined
      refine ⟨((db0.setPool inner b).setPool inner b4,outerScan,rel0),?_⟩
      simp only [outerTurns,read,ok_bind,joined]
      rw [if_neg (not_not_intro rfl)]
      rfl
    · exact absurd rfl ended
  · exact absurd rfl ended

-- So the turns of a join either all start an inner scan, and then none fails, or none starts one.
theorem outer_turns_alike (outer inner result : Name) (descs : List AttrDesc) (d1 d2 : AttrDesc) (op : Operator)
    (turns : Nat) :
    (∀ s, innerEnds outer inner result descs d1 d2 op turns s = []) ∨
    ∀ s failed s', (outerTurns outer inner result descs d1 d2 op turns).body s ≠ .ok (some failed,s') := by
  let starts (s : HeapFileScan) (value : List UInt8) :=
    (s.startScan d2.attrOffset d2.attrLen (Datatype.ofCode d2.attrType) (some value) op.mirror).1
  by_cases accepted : ∀ s value, starts s value = .ok
  · right
    intro ⟨db,outerScan,rel⟩ failed s' broke
    obtain ⟨read,_,broke⟩ := of_bind_ok broke
    cases read with
    | error status => cases broke
    | ok outerRec =>
      obtain ⟨⟨status,rel1,db1⟩,joined,broke⟩ := of_bind_ok broke
      have fine : status = .ok := by
        unfold joinOuter at joined
        obtain ⟨⟨opened,innerScan,db2⟩,_,joined⟩ := of_bind_ok joined
        obtain ⟨_,joined⟩ := passes joined
        dsimp only at joined
        rw [if_neg (not_not_intro (accepted _ _))] at joined
        obtain ⟨_,joined⟩ := passes joined
        obtain ⟨⟨innerScan3,rel3,db3⟩,_,joined⟩ := of_bind_ok joined
        obtain ⟨db4,_,joined⟩ := of_bind_ok joined
        cases joined
        rfl
      rw [fine] at broke
      cases broke
  · left
    intro ⟨db,outerScan,rel⟩
    have refused : ∀ s value, starts s value ≠ .ok := by
      intro s value fine
      apply accepted
      intro s' value'
      rw [← fine]
      exact startScan_status ..
    unfold innerEnds
    dsimp only
    split
    · split
      · rename_i reached
        unfold joinOuter.start at reached
        obtain ⟨⟨opened,innerScan,db2⟩,_,reached⟩ := of_bind_ok reached
        obtain ⟨_,reached⟩ := passes reached
        dsimp only at reached
        rw [if_pos (refused _ _)] at reached
        cases reached
      · rfl
    · rfl

theorem join_ended {turns : Nat} {projNames : List AttrInfo} {attr1 : AttrInfo} {op : Operator} {attr2 : AttrInfo}
    (ended : joinEnds turns db result projNames attr1 op attr2 ≠ [])
    (ran : QU_NL_Join turns db result projNames attr1 op attr2 = .ok (status,db')) : status = .ok := by
  unfold joinEnds at ended
  split at ended
  · rename_i descs d1 d2 db1 outerScan rel reached
    rw [QU_NL_Join_started reached,outerLoop_turns] at ran
    obtain ⟨⟨status2,outerScan2,rel2,db2⟩,looped,ran⟩ := of_bind_ok ran
    obtain ⟨⟨status3,db3,outerScan3,rel3⟩,looped,same⟩ := of_bind_ok looped
    cases same
    have fine : status2 = .ok := by
      rcases outer_turns_alike d1.relName d2.relName result descs d1 d2 op turns with quiet | sure
      · obtain ⟨_,_,_,_,passed⟩ := Loop.run_of_ends .ok .diverges turns quiet ended
        cases passed.symm.trans looped
        rfl
      · exact Loop.run_unfailing turns (fun _ s1 failed s' _ => sure s1 failed s') looped
    obtain ⟨db4,_,ran⟩ := of_bind_ok ran
    obtain ⟨db5,_,ran⟩ := of_bind_ok ran
    cases ran
    exact fine
  · exact absurd rfl ended

theorem UT_Load_opened {relation fileName relName : Name} {file : Option DataFile} {fd : DataFile} {width : Int}
    {iFile : InsertFileScan}
    (reached : UT_Load.start db relation fileName file = .ok (some (fd,relName,width,db1,iFile))) : file = some fd ∧
    db1.Present relName := by
  unfold UT_Load.start at reached
  obtain ⟨_,reached⟩ := passes reached
  cases file with
  | none => cases reached
  | some file =>
    obtain ⟨⟨status,rd,db2⟩,_,reached⟩ := of_bind_ok reached
    obtain ⟨_,reached⟩ := passes reached
    obtain ⟨⟨status2,descs,db3⟩,_,reached⟩ := of_bind_ok reached
    obtain ⟨_,reached⟩ := passes reached
    obtain ⟨⟨status3,iFile1,db4⟩,made,reached⟩ := of_bind_ok reached
    obtain ⟨opened,reached⟩ := passes reached
    obtain ⟨total,_,reached⟩ := of_bind_ok reached
    cases reached
    cases not_not.mp opened
    exact ⟨rfl,newInsertFileScan_present made⟩

-- Once its loop is over for want of a whole tuple, UT_Load has only the closing left to report.
theorem load_ended {turns : Nat} {relation fileName : Name} {file : Option DataFile}
    (ended : loadEnds turns db relation fileName file ≠ []) :
    ∃ fd db', file = some fd ∧ UT_Load turns db relation fileName file =
      .ok (if fd.closes then .ok else .unixErr,db') := by
  unfold loadEnds at ended
  split at ended
  · rename_i fd relName width db1 iFile reached
    obtain ⟨given,present⟩ := UT_Load_opened reached
    obtain ⟨_,_,⟨done,db2,iFile2⟩,_,looped⟩ := Loop.run_of_ends .ok .diverges turns (fun _ => rfl) ended
    have there : db2.Present relName := by
      refine Loop.run_invariant (fun s => s.2.1.Present relName) turns ?_ ?_ present looped
      · intro s read s' there next
        cases next
        exact there
      · intro s failed s' there body
        obtain ⟨⟨inserted,iFile3,db3⟩,ran,body⟩ := of_bind_ok body
        obtain ⟨b,rfl⟩ := insertRecord_put ran
        cases body
        exact present_setPool ..
    obtain ⟨b,closed⟩ := there.deleteInsert iFile2
    refine ⟨fd,db2.setPool relName b,given,?_⟩
    rw [UT_Load_started reached,loadLoop_turns]
    simp only [looped,ok_bind,pure_ok]
    rw [if_neg (not_not_intro rfl),closed]
    simp only [ok_bind]
    split <;> rfl
  · exact absurd rfl ended

end loops

-- Where a scan of an operator's run, or its reading of the data file, is cut short, an error is returned
-- just for the look-ups that QU_Select, QU_NL_Join and UT_Load make first. Of its input an operator returns OK,
-- and QU_Delete does so after its look-up, unless startScan refuses what that has left in attrDesc; UT_Load can
-- still fail to close the data file.
theorem partial_work_never_reported (atof : List UInt8 → List UInt8) (turns : Nat) (db : Db) :
    (∀ result projNames attr op attrValue,
      Cut (selectLookups db projNames attr ++ selectEnds atof turns db result projNames attr op attrValue) →
        ∃ status db', QU_Select atof turns db result projNames attr op attrValue = .ok (status,db') ∧
          (status ≠ .ok ↔ Cut (selectLookups db projNames attr))) ∧
    (∀ relation attrName op type attrValue attrDesc,
      (Cut (deleteEnds atof db relation attrName op type attrValue attrDesc) →
        ∃ db', QU_Delete atof db relation attrName op type attrValue attrDesc = .ok (.ok,db')) ∧
      (Cut (deleteLookups db relation attrName attrDesc) →
        ∀ status db', QU_Delete atof db relation attrName op type attrValue attrDesc = .ok (status,db') →
          (status ≠ .ok ↔ ¬ (deleteCondition atof (deleteLooked db relation attrName attrDesc) op type
            attrValue).Sound))) ∧
    (∀ result projNames attr1 op attr2,
      (Cut (joinLookups db projNames attr1 attr2 ++ joinEnds turns db result projNames attr1 op attr2) →
        ∀ status db', QU_NL_Join turns db result projNames attr1 op attr2 = .ok (status,db') →
          (status ≠ .ok ↔ Cut (joinLookups db projNames attr1 attr2))) ∧
      ∀ outer inner descs d1 d2 t, Cut (innerEnds outer inner result descs d1 d2 op turns t) →
        ∃ t', (outerTurns outer inner result descs d1 d2 op turns).body t = .ok (none,t')) ∧
    ∀ relation fileName (file : Option DataFile),
      Cut (loadLookups db relation fileName file) ∨ (∃ e ∈ loadEnds turns db relation fileName file, e ≠ some []) →
        ∃ status db', UT_Load turns db relation fileName file = .ok (status,db') ∧
          (status ≠ .ok ↔ Cut (loadLookups db relation fileName file) ∨ ∃ fd, file = some fd ∧ fd.closes = false) := by
  refine ⟨?_,?_,?_,?_⟩
  · intro result projNames attr op attrValue cut
    by_cases looked : Cut (selectLookups db projNames attr)
    · obtain ⟨status,db',ran,failed⟩ := select_lookups atof turns result projNames attr op attrValue looked
      exact ⟨status,db',ran,iff_of_true failed looked⟩
    · obtain ⟨db',ran⟩ := select_ended turns projNames attr op attrValue
        ((Cut.append.mp cut).resolve_left looked).ne_nil
      exact ⟨.ok,db',ran,iff_of_false (not_not_intro rfl) looked⟩
  · intro relation attrName op type attrValue attrDesc
    refine ⟨fun cut => delete_ended cut.ne_nil,fun cut status db' ran => ?_⟩
    unfold deleteLookups at cut
    split at cut
    · rename_i s db1 made
      have given : attrName ≠ [] := by
        rintro rfl
        refine cut.ne_nil ?_
        rw [AttrCatalog.infoEnds,if_pos (.inr rfl)]
      rw [delete_status made ran]
      exact and_iff_right given
    · exact absurd rfl cut.ne_nil
  · intro result projNames attr1 op attr2
    refine ⟨fun cut status db' ran => ?_,fun outer inner descs d1 d2 t cut => inner_goes_on cut.ne_nil⟩
    by_cases looked : Cut (joinLookups db projNames attr1 attr2)
    · obtain ⟨status',db1,ran',failed⟩ := join_lookups turns result projNames attr1 op attr2 looked
      cases ran.symm.trans ran'
      exact iff_of_true failed looked
    · have fine := join_ended ((Cut.append.mp cut).resolve_left looked).ne_nil ran
      exact iff_of_false (not_not_intro fine) looked
  · intro relation fileName file cut
    by_cases looked : Cut (loadLookups db relation fileName file)
    · obtain ⟨status,db',ran,failed⟩ := load_lookups turns looked
      exact ⟨status,db',ran,iff_of_true failed (.inl looked)⟩
    · obtain ⟨e,member,_⟩ := cut.resolve_left looked
      obtain ⟨fd,db',rfl,ran⟩ := load_ended (List.ne_nil_of_mem member)
      refine ⟨_,db',ran,?_⟩
      cases closes : fd.closes <;> simp [looked,closes]

-- Relation R has a record on each of its two pages, and no frame is left for the second; S has the
-- int attribute a and no record.
def shortTables : List (Name × List (List UInt8)) :=
  [(relCatName,[RelDesc.bytes ⟨[83],1⟩]),(attrCatName,[AttrDesc.bytes ⟨[83],[97],0,1,4⟩]),
    ([82],[List.replicate 503 1,List.replicate 503 2]),([83],[])]

def shortDb : Db :=
  let db := Db.holding (fun _ _ => zero 1024) ⟨HeapFile.fresh 0 0,none,0,nullRid⟩ shortTables
  {db with files := fun name => (db.files name).map fun b => if name =
    [82] then {b with faults := [none,none,none,some .bufferExceeded]} else b}

-- Ten bytes make two tuples of S and a half.
def leftoverBytes : DataFile := ⟨fun done => [some [5,0,0,0],some [6,0,0,0],some [7,0]].getD done (some []),true⟩

theorem shortDb_ends : deleteEnds id shortDb [82] [] .eq .string [] ⟨[],[],0,0,0⟩ = [.bufferExceeded] := by
  decide +kernel

theorem leftoverBytes_ends : loadEnds 3 shortDb [83] [100] (some leftoverBytes) = [some [7,0]] := by
  decide +kernel

theorem partial_work_never_reported_short :
    (∃ db', QU_Delete id shortDb [82] [] .eq .string [] ⟨[],[],0,0,0⟩ = .ok (.ok,db')) ∧
    ∃ status db', UT_Load 3 shortDb [83] [100] (some leftoverBytes) = .ok (status,db') ∧
      (status ≠ .ok ↔ Cut (loadLookups shortDb [83] [100] (some leftoverBytes)) ∨ ∃ fd, some leftoverBytes =
        some fd ∧ fd.closes = false) := by
  obtain ⟨_,delete,_,load⟩ := partial_work_never_reported id 3 shortDb
  constructor
  · refine (delete [82] [] .eq .string [] ⟨[],[],0,0,0⟩).1 ⟨.bufferExceeded,?_,by decide,by decide⟩
    rw [shortDb_ends]
    exact List.mem_singleton_self _
  · refine load [83] [100] (some leftoverBytes) (.inr ⟨some [7,0],?_,by decide⟩)
    rw [leftoverBytes_ends]
    exact List.mem_singleton_self _

theorem partial_work_unreported :
    (∃ db' left, QU_Delete id shortDb [82] [] .eq .string [] ⟨[],[],0,0,0⟩ = .ok (.ok,db') ∧ db'.contents [82] =
      .ok left ∧ left.length = 1 ∧
      deleteEnds id shortDb [82] [] .eq .string [] ⟨[],[],0,0,0⟩ = [.bufferExceeded]) ∧
    ∃ db', UT_Load 3 shortDb [83] [100] (some leftoverBytes) = .ok (.ok,db') ∧
      db'.contents [83] = .ok [[5,0,0,0],[6,0,0,0]] ∧
      loadEnds 3 shortDb [83] [100] (some leftoverBytes) = [some [7,0]] := by
  constructor
  · obtain ⟨db',left,ran,read,one⟩ := Db.exists_ok_read List.length (by decide +kernel :
      ((QU_Delete id shortDb [82] [] .eq .string [] ⟨[],[],0,0,0⟩).toOption.bind fun r =>
        (r.2.contents [82]).toOption.map fun recs => (r.1,recs.length)) = some (.ok,1))
    exact ⟨db',left,ran,read,one,shortDb_ends⟩
  · obtain ⟨db',ran,read⟩ := Db.exists_ok_contents (by decide +kernel :
      ((UT_Load 3 shortDb [83] [100] (some leftoverBytes)).toOption.bind fun r =>
        (r.2.contents [83]).toOption.map fun recs => (r.1,recs)) = some (.ok,[[5,0,0,0],[6,0,0,0]]))
    exact ⟨db',ran,read,leftoverBytes_ends⟩

end Minirel
