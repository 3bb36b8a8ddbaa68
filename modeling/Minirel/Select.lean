import Minirel.CatalogRows
import Minirel.Literals

namespace Minirel
open ByteMemory SlotDirectory Page Heap

-- An attribute's bytes in a record. What lies around a record belongs to others.
def field (rec : Record) (d : AttrDesc) : Except Abort (List UInt8) :=
  if 0 ≤ d.attrOffset ∧ 0 ≤ d.attrLen ∧ d.attrOffset + d.attrLen ≤ rec.length then
    .ok ((rec.data.drop d.attrOffset.toNat).take d.attrLen.toNat)
  else .error .undefined

-- The memcpy loop: each attribute behind the one before.
def project (rec : Record) : List AttrDesc → Except Abort (List UInt8)
  | [] => return []
  | d::ds => do
    let bytes ← field rec d
    return bytes ++ (← project rec ds)

-- reclen, and the array of that length on the stack; an int has no more than 31 bits.
def recLen (attrs : List AttrDesc) : Except Abort Int :=
  let total := (attrs.map AttrDesc.attrLen).sum
  if total < 0 ∨ 2 ^ 31 ≤ total then .error .undefined else .ok total

-- Looks up every projected attribute in turn.
def projDescs : Db → List AttrInfo → Except Abort (Status × List AttrDesc × Db)
  | db,[] => return (.ok,[],db)
  | db,p::ps => do
    let (status,d,db) ← AttrCatalog.getInfo db p.relName p.attrName ⟨[],[],0,0,0⟩
    if status ≠ .ok then return (status,[],db)
    let (status,ds,db) ← projDescs db ps
    return (status,d::ds,db)

-- The switch on the attribute's type. A type that is none of the three starts no scan.
def startSelect (atof : List UInt8 → List UInt8) (hfs : HeapFileScan) (attrDesc : Option AttrDesc) (op : Operator)
    (filter : List UInt8) :
    Status × HeapFileScan :=
  match attrDesc with
  | none => hfs.startScan 0 0 (some .string) none .eq
  | some d =>
    match Datatype.ofCode d.attrType with
    | none => (.ok,hfs)
    | some type => hfs.startScan d.attrOffset d.attrLen (some type) (some (searchValue atof type filter)) op

-- while(nextStatus == OK): the status is that of the last insert; an error of scanNext only ends
-- the loop. turns says how long the caller waits.
def selectLoop (source result : Name) (projNames : List AttrDesc) :
    Nat → Db → HeapFileScan → InsertFileScan → Except Abort (Status × HeapFileScan × InsertFileScan × Db)
  | 0,_,_,_ => throw .diverges
  | turns+1,db,hfs,rel => do
    let (next,hfs,db) ← db.scanNext source hfs
    match next with
    | .error _ => return (.ok,hfs,rel,db)
    | .ok _ =>
      match ← db.getRecord source hfs with
      | .error status => return (status,hfs,rel,db)
      | .ok rec =>
        let data ← project rec projNames
        let (inserted,rel,db) ← db.insertRecord result rel (.of data)
        match inserted with
        | .error status => return (status,hfs,rel,db)
        | .ok _ => selectLoop source result projNames turns db hfs rel

-- rel is on the stack and its destructor closes the file; one that could not be opened leaves it a
-- pointer to a deleted File.
def ScanSelect (atof : List UInt8 → List UInt8) (turns : Nat) (db : Db) (result : Name) (projNames : List AttrDesc)
    (attrDesc : Option AttrDesc) (op : Operator) (filter : List UInt8) : Except Abort (Status × Db) := do
  let some first := projNames.head? | throw .undefined
  let (status,hfs,db) ← db.newHeapFileScan first.relName
  if status ≠ .ok then return (status,db)
  let (status,rel,db) ← db.newInsertFileScan result
  if status ≠ .ok then throw .undefined
  let (status,hfs) := startSelect atof hfs attrDesc op filter
  if status ≠ .ok then
    let db ← db.deleteHeapFileScan first.relName hfs
    return (status,← db.deleteInsertFileScan result rel)
  let (status,hfs,rel,db) ← selectLoop first.relName result projNames turns db hfs rel
  let (_,hfs,db) ← db.endScan first.relName hfs
  let db ← db.deleteHeapFileScan first.relName hfs
  return (status,← db.deleteInsertFileScan result rel)

def QU_Select (atof : List UInt8 → List UInt8) (turns : Nat) (db : Db) (result : Name) (projNames : List AttrInfo)
    (attr : Option AttrInfo) (op : Operator) (attrValue : List UInt8) : Except Abort (Status × Db) := do
  let (status,descs,db) ← projDescs db projNames
  if status ≠ .ok then return (status,db)
  match attr with
  | none =>
    let _ ← recLen descs
    ScanSelect atof turns db result descs none .eq []
  | some attr =>
    let (status,attrDesc,db) ← AttrCatalog.getInfo db attr.relName attr.attrName ⟨[],[],0,0,0⟩
    if status ≠ .ok then return (status,db)
    let _ ← recLen descs
    ScanSelect atof turns db result descs (some attrDesc) op attrValue

-- What the projection of a record is when its attributes lie inside.
def projection (attrs : List AttrDesc) (bytes : List UInt8) : List UInt8 :=
  attrs.flatMap fun d => (bytes.drop d.attrOffset.toNat).take d.attrLen.toNat

def Inside (d : AttrDesc) (bytes : List UInt8) : Prop := 0 ≤ d.attrOffset ∧ 1 ≤ d.attrLen ∧
    d.attrOffset + d.attrLen ≤ bytes.length

instance (d : AttrDesc) (bytes : List UInt8) : Decidable (Inside d bytes) := inferInstanceAs (Decidable (_ ∧ _ ∧ _))

theorem laid_of_bytes {cat heap : Heap} {relation : Name} {attrs : List AttrDesc} {recs : List (List UInt8)}
    (listed : attributes cat relation = attrs) (same : (records heap).map Prod.snd = recs)
    (inside : ∀ bytes ∈ recs, ∀ d ∈ attrs, Inside d bytes) : ∀ e ∈ records heap, ∀ d ∈
    attributes cat relation, Inside d e.2 := by
  subst listed same
  exact fun e member => inside e.2 (List.mem_map_of_mem member)

theorem field_inside {d : AttrDesc} {bytes : List UInt8} (inside : Inside d bytes) :
    field (.of bytes) d = .ok ((bytes.drop d.attrOffset.toNat).take d.attrLen.toNat) := by
  obtain ⟨low,positive,high⟩ := inside
  rw [field,if_pos ⟨low,by omega,high⟩,Record.of]

theorem project_inside {attrs : List AttrDesc} {bytes : List UInt8} (inside : ∀ d ∈ attrs, Inside d bytes) :
    project (.of bytes) attrs = .ok (projection attrs bytes) := by
  induction attrs with
  | nil => rfl
  | cons d ds ih =>
    rw [project,field_inside (inside d (List.mem_cons_self ..)),ok_bind,ih fun d member =>
      inside d (List.mem_cons_of_mem _ member)]
    rfl

-- Attributes one behind the other, each out of the bytes it comes from.
def gathered (source : AttrDesc → List UInt8) (attrs : List AttrDesc) : List UInt8 :=
  attrs.flatMap fun d => ((source d).drop d.attrOffset.toNat).take d.attrLen.toNat

theorem length_gathered {source : AttrDesc → List UInt8} {attrs : List AttrDesc}
    (inside : ∀ d ∈ attrs, Inside d (source d)) :
    ((gathered source attrs).length : Int) = (attrs.map AttrDesc.attrLen).sum := by
  induction attrs with
  | nil => rfl
  | cons d ds ih =>
    obtain ⟨low,positive,high⟩ := inside d (List.mem_cons_self ..)
    have later := ih fun d member => inside d (List.mem_cons_of_mem _ member)
    rw [gathered] at later ⊢
    rw [List.flatMap_cons,List.length_append,List.map_cons,List.sum_cons,List.length_take,List.length_drop]
    omega

theorem gathered_ne_nil {source : AttrDesc → List UInt8} {attrs : List AttrDesc}
    (inside : ∀ d ∈ attrs, Inside d (source d))
    (some_attr : attrs ≠ []) : gathered source attrs ≠ [] := by
  cases attrs with
  | nil => exact absurd rfl some_attr
  | cons d ds =>
    obtain ⟨low,positive,high⟩ := inside d (List.mem_cons_self ..)
    rw [gathered,List.flatMap_cons]
    apply List.append_ne_nil_of_left_ne_nil
    apply List.ne_nil_of_length_pos
    rw [List.length_take,List.length_drop]
    omega

theorem gathered_int {source : AttrDesc → List UInt8} {attrs : List AttrDesc}
    (inside : ∀ d ∈ attrs, Inside d (source d))
    (short : (attrs.map AttrDesc.attrLen).sum < 2 ^ 31) : (gathered source attrs).length < 2 ^ 31 := by
  have total := length_gathered inside
  omega

theorem recLen_ok {attrs : List AttrDesc} {total : Int} (ok : recLen attrs = .ok total) :
    (attrs.map AttrDesc.attrLen).sum < 2 ^ 31 := by
  unfold recLen at ok
  dsimp only at ok
  split at ok
  · cases ok
  · omega

theorem recLen_error {attrs : List AttrDesc} {a : Abort} (error : recLen attrs = .error a) : a = .undefined := by
  unfold recLen at error
  dsimp only at error
  split at error <;> cases error
  rfl

variable {db : Db} {source result : Name} {b bt : Pool} {k kt : Pool.Books} {recCnt recCntT : Int}
  {heap before : Heap} {n : Int} {d : Slots}
  {new : List (List UInt8)} {attrs : List AttrDesc}

-- What a loop has done when it ends: the source stands as it did, and the result has gained the
-- projections of the records that matched, all of them unless an insert failed.
structure Selected (k kt : Pool.Books) (recCnt : Int) (heap : Heap) (b : Pool) (s : HeapFileScan) (c : Cursor)
    (wanted : List (List UInt8))
    (status : Status) (s' : HeapFileScan) (rel' : InsertFileScan) (b' bt' : Pool) : Prop where
  moved : ∃ c', HeapFileScan.Moves k recCnt b s c b' s' c'
  gained : ∃ recCntT' before' n' d' new', InsertFileScan.Inserting kt recCntT' bt' rel' before' n' d' ∧
    Appending heap before' n' d' new' ∧
    new' <+: wanted ∧ (status = .ok → new' = wanted)

theorem selectLoop_spec (db : Db) {s : HeapFileScan} {rel : InsertFileScan} {c : Cursor} (apart : source ≠ result)
    (turns : Nat) (owned : k.Owned)
    (ownedT : kt.Owned) (some_attr : attrs ≠ []) (short : (attrs.map AttrDesc.attrLen).sum < 2 ^ 31)
    (scanning : HeapFileScan.Scanning k recCnt b s c)
    (inside : ∀ e ∈ c.remaining, ∀ d ∈ attrs, Inside d e.2)
    (inserting : InsertFileScan.Inserting kt recCntT bt rel before n d) (appending : Appending heap before n d new) :
    (turns ≤ (c.remaining.filter fun e => s.matchRec (.of e.2)).length ∧
      selectLoop source result attrs turns ((db.setPool source b).setPool result bt) s rel = .error .diverges) ∨
    ∃ status s' rel' b' bt', selectLoop source result attrs turns ((db.setPool source b).setPool result bt) s rel =
        .ok (status,s',rel',(db.setPool source b').setPool result bt') ∧
      Selected k kt recCnt heap b s c (new ++ (c.remaining.filter fun e => s.matchRec (.of e.2)).map fun e =>
        projection attrs e.2)
        status s' rel' b' bt' := by
  induction turns generalizing b s c bt rel before n d new recCntT with
  | zero => exact .inl ⟨Nat.zero_le _,rfl⟩
  | succ turns ih =>
    obtain ⟨b1,s1,c1,moves,finds⟩ := HeapFileScan.scanNext_spec owned scanning
    unfold selectLoop
    rw [Db.setPool_comm _ _ _ apart]
    generalize found : HeapFileScan.scanNext b s = outcome at finds
    cases finds with
    | eof passed done =>
      have nothing := HeapFileScan.filter_passed passed
      right
      refine ⟨.ok,s1,rel,b1,bt,?_,⟨c1,moves⟩,recCntT,before,n,d,new,inserting,appending,?_,fun _ => ?_⟩
      · rw [Db.scanNext_at found,Db.setPool_comm _ _ _ apart]
        rfl
      · exact List.prefix_append _ _
      · rw [nothing,List.map_nil,List.append_nil]
    | record skipped bytes remaining passed accepted current =>
      have next := HeapFileScan.filter_next remaining passed accepted moves.filter
      have member : (s1.curRec,bytes) ∈ c.remaining := by rw [remaining]; simp
      have here := inside _ member
      have later : ∀ e ∈ c1.remaining, ∀ d ∈ attrs, Inside d e.2 := fun e ahead =>
        inside e (by rw [remaining]; simp [ahead])
      have filled : projection attrs bytes ≠ [] := gathered_ne_nil here some_attr
      have int : (projection attrs bytes).length < 2 ^ 31 := gathered_int here short
      rw [Db.scanNext_at found,ok_bind]
      dsimp only
      rw [Db.getRecord_at,HeapFileScan.getRecord_spec moves.scanning current rfl,ok_bind]
      dsimp only
      rw [project_inside here,ok_bind,Db.setPool_comm _ _ _ apart.symm]
      obtain ⟨inserted,rel2,bt2,recCnt2,before2,n2,d2,ran,inserting2,told⟩ :=
        InsertFileScan.insertRecord_appends ownedT filled int inserting appending
      rw [Db.insertRecord_at ran,ok_bind,next,List.map_cons]
      rcases told with ⟨rid,rfl,appending2⟩ | ⟨status,failed,rfl,appending2⟩
      · rcases ih moves.scanning later inserting2 appending2 with ⟨few,out⟩ | ⟨status,s3,rel3,b3,bt3,looped,
          moved,gained⟩
        · exact .inl ⟨Nat.succ_le_succ few,out⟩
        · right
          rw [List.append_assoc] at gained
          obtain ⟨c3,moves3⟩ := moved
          exact ⟨status,s3,rel3,b3,bt3,looped,⟨c3,moves.trans moves3⟩,gained⟩
      · right
        refine ⟨status,s1,rel2,b1,bt2,rfl,⟨c1,moves⟩,recCnt2,before2,n2,d2,new,inserting2,appending2,
          List.prefix_append _ _,fun fine => ?_⟩
        exact absurd fine failed

-- The condition that startSelect leaves with the scan.
def selectCondition (atof : List UInt8 → List UInt8) (attrDesc : Option AttrDesc) (op : Operator)
    (filter : List UInt8) : Option Condition :=
  attrDesc.bind fun d => (Datatype.ofCode d.attrType).map fun type =>
    ⟨d.attrOffset,d.attrLen,type,searchValue atof type filter,op⟩

theorem startSelect_spec (atof : List UInt8 → List UInt8) (s : HeapFileScan) (clear : s.filter = none)
    (attrDesc : Option AttrDesc)
    (op : Operator) (filter : List UInt8) :
    startSelect atof s attrDesc op filter = (.ok,{s with filter := selectCondition atof attrDesc op filter}) ∨
    startSelect atof s attrDesc op filter = (.badScanParm,s) := by
  unfold startSelect selectCondition
  cases attrDesc with
  | none => exact .inl rfl
  | some d =>
    dsimp only
    rw [Option.bind_some]
    cases Datatype.ofCode d.attrType with
    | none =>
      left
      rw [Option.map_none,← clear]
    | some type =>
      rw [Option.map_some]
      by_cases sound : (⟨d.attrOffset,d.attrLen,type,searchValue atof type filter,op⟩ : Condition).Sound
      · exact .inl (s.startScan_sound sound)
      · exact .inr (s.startScan_unsound sound)

variable {atof : List UInt8 → List UInt8} {shelf : Shelf} {cat file target : HeldFile}

-- The records that a query is to add to its result.
def selected (heap : Heap) (condition : Option Condition) (attrs : List AttrDesc) : List (List UInt8) :=
  ((records heap).filter fun e => HeapFileScan.accepts condition e.2).map fun e => projection attrs e.2

theorem selected_of_bytes (heap : Heap) (condition : Option Condition) (attrs : List AttrDesc) :
    selected heap condition attrs =
      (((records heap).map Prod.snd).filter (HeapFileScan.accepts condition)).map (projection attrs) := by
  rw [selected,List.filter_map,List.map_map]
  rfl

-- How a query that ends leaves the directory: the result has gained what it was to gain, or a first
-- part of it when the query failed, and the other files stand as they did.
def Answered (shelf : Shelf) (result : Name) (target : HeldFile) (expected : List (List UInt8)) (status : Status)
    (db' : Db) : Prop :=
  ∃ target' new, db'.Stands (Function.update shelf result (some target')) ∧ target'.books = target.books ∧
    Gains target.heap target'.heap new ∧ new <+: expected ∧ (status = .ok → new = expected)

-- With both objects opened, either the condition is refused or the loop runs under it.
theorem ScanSelect_opened {first : AttrDesc} {db1 db2 : Db} {s1 : HeapFileScan} {rel1 : InsertFileScan}
    (head : attrs.head? = some first)
    (made : db.newHeapFileScan first.relName = .ok (.ok,s1,db1)) (clear : s1.filter = none)
    (madeT : db1.newInsertFileScan result = .ok (.ok,rel1,db2)) (atof : List UInt8 → List UInt8)
    (attrDesc : Option AttrDesc) (op : Operator)
    (filter : List UInt8) (turns : Nat) :
    ScanSelect atof turns db result attrs attrDesc op filter = (do
      let (status,hfs,rel,db) ← selectLoop first.relName result attrs turns db2
        {s1 with filter := selectCondition atof attrDesc op filter} rel1
      let (_,hfs,db) ← db.endScan first.relName hfs
      let db ← db.deleteHeapFileScan first.relName hfs
      return (status,← db.deleteInsertFileScan result rel)) ∨
    ScanSelect atof turns db result attrs attrDesc op filter = (do
      let db ← db2.deleteHeapFileScan first.relName s1
      return (.badScanParm,← db.deleteInsertFileScan result rel1)) := by
  rw [ScanSelect,head]
  dsimp only
  rw [made,ok_bind]
  dsimp only
  rw [if_neg (not_not_intro rfl),madeT,ok_bind]
  dsimp only
  rw [if_neg (not_not_intro rfl)]
  rcases startSelect_spec atof s1 clear attrDesc op filter with started | refused
  · rw [started]
    dsimp only
    rw [if_neg (not_not_intro rfl)]
    exact .inl rfl
  · rw [refused]
    dsimp only
    rw [if_pos (by decide)]
    exact .inr rfl

theorem ScanSelect_spec (atof : List UInt8 → List UInt8) (stands : db.Stands shelf) (apart : source ≠ result)
    (present : shelf source = some file)
    (there : shelf result = some target) (some_attr : attrs ≠ []) (from_source : ∀ d ∈ attrs, d.relName = source)
    (short : (attrs.map AttrDesc.attrLen).sum < 2 ^ 31) (inside : ∀ e ∈ records file.heap, ∀ d ∈ attrs, Inside d e.2)
    (attrDesc : Option AttrDesc) (op : Operator) (filter : List UInt8) (turns : Nat) :
    (turns ≤ (records file.heap).length ∧ ScanSelect atof turns db result attrs attrDesc op filter = .error .diverges) ∨
    ∃ status db', ScanSelect atof turns db result attrs attrDesc op filter = .ok (status,db') ∧
      Answered shelf result target (selected file.heap (selectCondition atof attrDesc op filter) attrs) status db' := by
  obtain ⟨first,rest,split⟩ := List.exists_cons_of_ne_nil some_attr
  have head : attrs.head? = some first := by rw [split]; rfl
  obtain rfl : first.relName = source := from_source first (by rw [split]; exact List.mem_cons_self ..)
  have holds := stands first.relName file present
  have holdsT := stands result target there
  have ownedS : file.books.opened.Owned := holds.2.1
  have ownedT : target.books.opened.Owned := holdsT.2.1
  obtain ⟨b1,s1,c1,opened,made,whole,all,clear,scanning,stands1,_,_⟩ := stands.open_scan present
  have there1 : (Function.update shelf first.relName (some opened) : Shelf) result = some target := by
    rw [Function.update_of_ne apart.symm]
    exact there
  obtain ⟨bt1,rel1,before,n,d,_,madeT,splitT,inserting,_,_,_⟩ := stands1.open_insert there1
  rcases ScanSelect_opened head made clear madeT atof attrDesc op filter turns with begun | refused
  · rw [begun]
    have wanted : (c1.remaining.filter fun e => HeapFileScan.matchRec
      {s1 with filter := selectCondition atof attrDesc op filter} (.of e.2)).map
        (fun e => projection attrs e.2) = selected file.heap (selectCondition atof attrDesc op filter) attrs := by
      rw [all,selected]
      exact congrArg _ (List.filter_congr fun e _ => HeapFileScan.matchRec_accepts rfl e.2)
    rcases selectLoop_spec db apart turns ownedS ownedT some_attr short (scanning.filtered _)
      (by rw [all]; exact inside) inserting
      (Appending.start splitT) with ⟨few,out⟩ | ⟨status,s3,rel3,b3,bt3,looped,⟨c3,moves⟩,recCnt3,before3,n3,
        d3,new,inserting3,appending,part,full⟩
    · left
      refine ⟨Nat.le_trans few ?_,by rw [out]; rfl⟩
      rw [all]
      exact List.length_filter_le _ _
    · right
      rw [List.nil_append,wanted] at part full
      have whole3 : c3.heap = file.heap := moves.heap.trans whole
      obtain ⟨s4,b4,b5,ended,deleted,kept5,view5⟩ :=
        (db.setPool result bt3).end_spec first.relName holds.2.1 moves.scanning
      have stands5 := stands.restored present moves.scanning whole3 kept5 view5
      obtain ⟨bt6,closed,stands6⟩ := stands5.close_insert there inserting3
      refine ⟨status,_,?_,⟨target.books,before3 ++ [(n3,d3)],recCnt3⟩,new,stands6,rfl,appending.gains,part,full⟩
      rw [looped,ok_bind]
      dsimp only
      rw [Db.setPool_comm _ _ _ apart,ended,ok_bind]
      dsimp only
      rw [deleted,ok_bind,Db.setPool_comm _ _ _ apart.symm,closed]
      rfl
  · right
    obtain ⟨b5,deleted,kept5,view5⟩ := (db.setPool result bt1).delete_spec first.relName holds.2.1 scanning
    have stands5 := stands.restored present scanning whole kept5 view5
    obtain ⟨bt6,closed,stands6⟩ := stands5.close_insert there inserting
    refine ⟨.badScanParm,_,?_,⟨target.books,before ++ [(n,d)],target.recCnt⟩,[],stands6,rfl,
      (Appending.start splitT).gains,
      List.nil_prefix,fun fine => by cases fine⟩
    rw [refused,Db.setPool_comm _ _ _ apart,deleted,ok_bind,Db.setPool_comm _ _ _ apart.symm,closed]
    rfl

-- The attributes a query names, each found in the catalog.
structure Found (cat : Heap) (relation : Name) (info : AttrInfo) (d : AttrDesc) : Prop where
  relName : info.relName = relation
  attrName : info.attrName ≠ []
  attr : attrOf cat relation info.attrName = some d

theorem projDescs_spec {infos : List AttrInfo} {descs : List AttrDesc} (stands : db.Stands shelf)
    (catalog : shelf attrCatName = some cat)
    (wide : Rows cat.heap AttrDesc.size)
    (found : List.Forall₂ (fun info d => ∃ relation, relation ≠ [] ∧ 0 ∉ relation ∧ Found cat.heap relation info d)
      infos descs) :
    ∃ db', projDescs db infos = .ok (.ok,descs,db') ∧ db'.Stands shelf := by
  induction found generalizing db with
  | nil => exact ⟨db,rfl,stands⟩
  | cons here _ ih =>
    obtain ⟨relation,named,clean,relName,attrName,attr⟩ := here
    obtain ⟨db1,asked,stands1⟩ := AttrCatalog.getInfo_found stands catalog wide clean named attrName attr ⟨[],[],0,0,0⟩
    obtain ⟨db2,looked,stands2⟩ := ih stands1
    refine ⟨db2,?_,stands2⟩
    rw [projDescs,relName,asked,ok_bind]
    dsimp only
    rw [if_neg (not_not_intro rfl),looked]
    rfl

theorem Found.listed {cat : Heap} {relation : Name} {infos : List AttrInfo} {descs : List AttrDesc}
    (found : List.Forall₂ (Found cat relation) infos descs) : ∀ d ∈ descs, d ∈ attributes cat relation := by
  induction found with
  | nil => exact fun d member => nomatch member
  | cons here _ ih =>
    intro d member
    rcases List.mem_cons.mp member with rfl | later
    · exact (attrOf_mem here.attr).1
    · exact ih d later

-- A selection over a relation of a directory that stands, with its attributes found in the catalog.
structure SelectQuery (db : Db) (shelf : Shelf) (cat file target : HeldFile) (source result : Name)
    (infos : List AttrInfo)
    (attrs : List AttrDesc) (attr : Option AttrInfo) (attrDesc : Option AttrDesc) : Prop where
  stands : db.Stands shelf
  catalog : shelf attrCatName = some cat
  wide : Rows cat.heap AttrDesc.size
  clean : 0 ∉ source
  at_source : shelf source = some file
  at_result : shelf result = some target
  laid : ∀ e ∈ records file.heap, ∀ d ∈ attributes cat.heap source, Inside d e.2
  some_attr : infos ≠ []
  found : List.Forall₂ (Found cat.heap source) infos attrs
  chosen : Option.Rel (Found cat.heap source) attr attrDesc

section query

variable {infos : List AttrInfo} {attr : Option AttrInfo} {attrDesc : Option AttrDesc}

theorem SelectQuery.some_desc (query : SelectQuery db shelf cat file target source result infos attrs attr attrDesc) :
    attrs ≠ [] := by
  rintro rfl
  exact query.some_attr (List.forall₂_nil_right_iff.mp query.found)

-- What is left to do when the attributes have been looked up.
theorem QU_Select_looked (query : SelectQuery db shelf cat file target source result infos attrs attr attrDesc)
    (atof : List UInt8 → List UInt8) (op : Operator) (attrValue : List UInt8) (turns : Nat) :
    ∃ db', db'.Stands shelf ∧ QU_Select atof turns db result infos attr op attrValue =
      recLen attrs >>= fun _ => ScanSelect atof turns db' result attrs attrDesc op attrValue := by
  obtain ⟨stands,catalog,wide,clean,at_source,_,_,_,found,chosen⟩ := query
  have named := (stands source file at_source).1
  obtain ⟨db1,looked,stands1⟩ := projDescs_spec stands catalog wide
    (found.imp fun _ _ here => ⟨source,named,clean,here⟩)
  unfold QU_Select
  rw [looked,ok_bind]
  dsimp only
  rw [if_neg (not_not_intro rfl)]
  cases chosen with
  | none => exact ⟨db1,stands1,rfl⟩
  | some here =>
    obtain ⟨db2,asked,stands2⟩ := AttrCatalog.getInfo_found stands1 catalog wide clean named here.attrName here.attr
      ⟨[],[],0,0,0⟩
    refine ⟨db2,stands2,?_⟩
    dsimp only
    rw [here.relName,asked,ok_bind]
    dsimp only
    rw [if_neg (not_not_intro rfl)]

-- The three ways a query can go: more columns than an int can count the bytes of, too few turns,
-- or an end with a status.
theorem QU_Select_spec (query : SelectQuery db shelf cat file target source result infos attrs attr attrDesc)
    (apart : source ≠ result)
    (atof : List UInt8 → List UInt8) (op : Operator) (attrValue : List UInt8) (turns : Nat) :
    (recLen attrs = .error .undefined ∧ QU_Select atof turns db result infos attr op attrValue = .error .undefined) ∨
    (turns ≤ (records file.heap).length ∧ QU_Select atof turns db result infos attr op attrValue = .error .diverges) ∨
    ∃ status db', QU_Select atof turns db result infos attr op attrValue = .ok (status,db') ∧
      Answered shelf result target (selected file.heap (selectCondition atof attrDesc op attrValue) attrs)
        status db' := by
  have listed := Found.listed query.found
  obtain ⟨db1,stands1,looked⟩ := QU_Select_looked query atof op attrValue turns
  rw [looked]
  cases total : recLen attrs with
  | error a =>
    cases recLen_error total
    exact .inl ⟨rfl,rfl⟩
  | ok total' =>
    exact .inr (ScanSelect_spec atof stands1 apart query.at_source query.at_result query.some_desc
      (fun d member => attributes_relName (listed d member)) (recLen_ok total)
      (fun e member d one => query.laid e member d (listed d one))
      attrDesc op attrValue turns)

end query

-- A query that returns OK has projected the selected records, in scan order, each once, and has
-- changed nothing else.
theorem select_projects_selection (atof : List UInt8 → List UInt8) (db : Db) (shelf : Shelf) (stands : db.Stands shelf)
    (cat file target : HeldFile) (catalog : shelf attrCatName = some cat) (wide : Rows cat.heap AttrDesc.size)
    (source result : Name)
    (clean : 0 ∉ source) (apart : source ≠ result) (present : shelf source = some file)
    (there : shelf result = some target)
    (laid : ∀ e ∈ records file.heap, ∀ d ∈ attributes cat.heap source, Inside d e.2) (infos : List AttrInfo)
    (attrs : List AttrDesc)
    (some_attr : infos ≠ []) (found : List.Forall₂ (Found cat.heap source) infos attrs) (attr : Option AttrInfo)
    (attrDesc : Option AttrDesc) (chosen : Option.Rel (Found cat.heap source) attr attrDesc) (op : Operator)
    (attrValue : List UInt8)
    (turns : Nat) (db' : Db) (ran : QU_Select atof turns db result infos attr op attrValue = .ok (.ok,db')) :
    ∃ target', db'.Stands (Function.update shelf result (some target')) ∧
      Gains target.heap target'.heap (selected file.heap (selectCondition atof attrDesc op attrValue) attrs) := by
  rcases QU_Select_spec ⟨stands,catalog,wide,clean,present,there,laid,some_attr,found,chosen⟩ apart atof op
      attrValue turns with
    ⟨_,out⟩ | ⟨_,out⟩ | ⟨status,db1,done,target',new,stands',_,gains,_,full⟩
  · rw [out] at ran
    cases ran
  · rw [out] at ran
    cases ran
  · rw [done] at ran
    obtain ⟨fine,rfl⟩ := Prod.mk.inj (Except.ok.inj ran)
    rw [full fine] at gains
    exact ⟨target',stands',gains⟩

theorem select_projects_selection_sample : ∃ shelf target db' target', shelf [84] = some target ∧
    QU_Select id 2 sampleDb [84] [⟨[82],[98],-1,-1,none⟩,⟨[82],[97],-1,-1,none⟩] (some ⟨[82],[97],1,-1,some [49]⟩) .eq
      [49] = .ok (.ok,db') ∧
    db'.Stands (Function.update shelf [84] (some target')) ∧ Gains target.heap target'.heap [[2,0,0,0,1,0,0,0]] := by
  obtain ⟨shelf,cat,r,_,t,stands,catalog,wide,at_r,_,at_t,recs,_,_,attrs,_⟩ := sampleDb_stands
  obtain ⟨db',succeeded⟩ := Db.exists_ok
    (by decide +kernel : (QU_Select id 2 sampleDb [84] [⟨[82],[98],-1,-1,none⟩,⟨[82],[97],-1,-1,none⟩]
    (some ⟨[82],[97],1,-1,some [49]⟩) .eq [49]).toOption.map Prod.fst = some .ok)
  have found : List.Forall₂ (Found cat.heap [82]) [⟨[82],[98],-1,-1,none⟩,⟨[82],[97],-1,-1,none⟩]
      [⟨[82],[98],4,1,4⟩,⟨[82],[97],0,1,4⟩] :=
    .cons ⟨rfl,by decide,by rw [attrOf,attrs]; decide⟩ (.cons ⟨rfl,by decide,by rw [attrOf,attrs]; decide⟩ .nil)
  have chosen : Option.Rel (Found cat.heap [82]) (some ⟨[82],[97],1,-1,some [49]⟩) (some ⟨[82],[97],0,1,4⟩) :=
    .some ⟨rfl,by decide,by rw [attrOf,attrs]; decide⟩
  have laid := laid_of_bytes attrs recs (by decide)
  obtain ⟨target',stands',gains⟩ := select_projects_selection id sampleDb shelf stands cat r t catalog wide
    [82] [84] (by decide) (by decide)
    at_r at_t laid _ _ (by decide) found _ _ chosen .eq [49] 2 db' succeeded
  rw [selected_of_bytes,recs] at gains
  exact ⟨shelf,t,db',target',at_t,succeeded,stands',gains⟩

end Minirel
