import Minirel.Select

namespace Minirel
open ByteMemory SlotDirectory Page Heap

-- myop: the inner attribute stands on the left of the scan's comparison.
def Operator.mirror : Operator → Operator
  | .eq => .eq
  | .gt => .lt
  | .gte => .lte
  | .lt => .gt
  | .lte => .gte
  | .ne => .ne

-- The copying of the output record: an attribute comes from the outer record when it bears the
-- name of the outer relation.
def joinRecord (outerName : Name) (outerRec innerRec : Record) : List AttrDesc → Except Abort (List UInt8)
  | [] => return []
  | d::ds => do
    let bytes ← field (if d.relName = outerName then outerRec else innerRec) d
    return bytes ++ (← joinRecord outerName outerRec innerRec ds)

-- while (innerScan.scanNext(innerRID) == OK), with its two assertions.
def innerLoop (inner result outerName : Name) (descs : List AttrDesc) (outerRec : Record) :
    Nat → Db → HeapFileScan → InsertFileScan → Except Abort (HeapFileScan × InsertFileScan × Db)
  | 0,_,_,_ => throw .diverges
  | turns+1,db,innerScan,rel => do
    let (next,innerScan,db) ← db.scanNext inner innerScan
    match next with
    | .error _ => return (innerScan,rel,db)
    | .ok _ =>
      match ← db.getRecord inner innerScan with
      | .error _ => throw .exit
      | .ok innerRec =>
        let data ← joinRecord outerName outerRec innerRec descs
        let (inserted,rel,db) ← db.insertRecord result rel (.of data)
        match inserted with
        | .error _ => throw .exit
        | .ok _ => innerLoop inner result outerName descs outerRec turns db innerScan rel

-- The body of the loop over the outer table. The filter is a pointer into the outer record; what
-- lies behind that belongs to others. innerScan goes at the end of the block.
def joinOuter (outer inner result : Name) (descs : List AttrDesc) (d1 d2 : AttrDesc) (op : Operator)
    (turns : Nat) (db : Db)
    (outerRec : Record) (rel : InsertFileScan) : Except Abort (Status × InsertFileScan × Db) := do
  let (status,innerScan,db) ← db.newHeapFileScan inner
  if status ≠ .ok then throw .undefined
  let (status,innerScan) := innerScan.startScan d2.attrOffset d2.attrLen (Datatype.ofCode d2.attrType)
    (some (outerRec.data.drop d1.attrOffset.toNat)) op.mirror
  if status ≠ .ok then return (status,rel,← db.deleteHeapFileScan inner innerScan)
  if d1.attrOffset < 0 ∨ outerRec.length < d1.attrOffset + d2.attrLen then throw .undefined
  let (innerScan,rel,db) ← innerLoop inner result outer descs outerRec turns db innerScan rel
  return (.ok,rel,← db.deleteHeapFileScan inner innerScan)

def outerLoop (outer inner result : Name) (descs : List AttrDesc) (d1 d2 : AttrDesc) (op : Operator)
    (innerTurns : Nat) :
    Nat → Db → HeapFileScan → InsertFileScan → Except Abort (Status × HeapFileScan × InsertFileScan × Db)
  | 0,_,_,_ => throw .diverges
  | turns+1,db,outerScan,rel => do
    let (next,outerScan,db) ← db.scanNext outer outerScan
    match next with
    | .error _ => return (.ok,outerScan,rel,db)
    | .ok _ =>
      match ← db.getRecord outer outerScan with
      | .error _ => throw .exit
      | .ok outerRec =>
        let (status,rel,db) ← joinOuter outer inner result descs d1 d2 op innerTurns db outerRec rel
        if status ≠ .ok then return (status,outerScan,rel,db)
        outerLoop outer inner result descs d1 d2 op innerTurns turns db outerScan rel

-- Objects on the stack whose file could not be opened have destructors that go through pointers
-- nothing has set.
def joinScan (turns : Nat) (db : Db) (result : Name) (descs : List AttrDesc) (d1 d2 : AttrDesc) (op : Operator) :
    Except Abort (Status × Db) := do
  let (status,rel,db) ← db.newInsertFileScan result
  if status ≠ .ok then throw .undefined
  let (status,outerScan,db) ← db.newHeapFileScan d1.relName
  if status ≠ .ok then throw .undefined
  let (_,outerScan) := outerScan.startScan 0 0 (some .string) none .eq
  let (status,outerScan,rel,db) ← outerLoop d1.relName d2.relName result descs d1 d2 op turns turns db outerScan rel
  let db ← db.deleteHeapFileScan d1.relName outerScan
  return (status,← db.deleteInsertFileScan result rel)

def QU_NL_Join (turns : Nat) (db : Db) (result : Name) (projNames : List AttrInfo) (attr1 : AttrInfo) (op : Operator)
    (attr2 : AttrInfo) : Except Abort (Status × Db) := do
  if attr1.attrType ≠ attr2.attrType ∨ attr1.attrLen ≠ attr2.attrLen then return (.attrTypeMismatch,db)
  let (status,descs,db) ← projDescs db projNames
  if status ≠ .ok then return (status,db)
  let (status,d1,db) ← AttrCatalog.getInfo db attr1.relName attr1.attrName ⟨[],[],0,0,0⟩
  if status ≠ .ok then return (status,db)
  let (status,d2,db) ← AttrCatalog.getInfo db attr2.relName attr2.attrName ⟨[],[],0,0,0⟩
  if status ≠ .ok then return (status,db)
  let _ ← recLen descs
  joinScan turns db result descs d1 d2 op

-- Where each attribute of the output comes from for a pair of records.
def sourceOf (outerName : Name) (one two : List UInt8) (d : AttrDesc) :
    List UInt8 := if d.relName = outerName then one else two

theorem joinRecord_inside {outerName : Name} {attrs : List AttrDesc} {one two : List UInt8}
    (inside : ∀ d ∈ attrs, Inside d (sourceOf outerName one two d)) :
    joinRecord outerName (.of one) (.of two) attrs = .ok (gathered (sourceOf outerName one two) attrs) := by
  induction attrs with
  | nil => rfl
  | cons d ds ih =>
    have here := inside d (List.mem_cons_self ..)
    have chosen : (if d.relName = outerName then Record.of one else .of two) = .of (sourceOf outerName one two d) := by
      rw [sourceOf]
      split <;> rfl
    rw [joinRecord,chosen,field_inside here,ok_bind,ih fun d member => inside d (List.mem_cons_of_mem _ member)]
    rfl

variable {db : Db} {outer inner result : Name} {b bt : Pool} {k kt : Pool.Books} {recCnt recCntT : Int}
  {heap before : Heap} {n : Int}
  {d : Slots} {new : List (List UInt8)} {attrs : List AttrDesc}

theorem innerLoop_spec (db : Db) (outerName : Name) (one : List UInt8) {s : HeapFileScan} {rel : InsertFileScan}
    {c : Cursor}
    (apart : inner ≠ result) (turns : Nat) (owned : k.Owned) (ownedT : kt.Owned) (some_attr : attrs ≠ [])
    (short : (attrs.map AttrDesc.attrLen).sum < 2 ^ 31) (scanning : HeapFileScan.Scanning k recCnt b s c)
    (inside : ∀ e ∈ c.remaining, ∀ d ∈ attrs, Inside d (sourceOf outerName one e.2 d))
    (inserting : InsertFileScan.Inserting kt recCntT bt rel before n d) (appending : Appending heap before n d new) :
    let wanted := (c.remaining.filter fun e => s.matchRec (.of e.2)).map fun e =>
      gathered (sourceOf outerName one e.2) attrs
    let run := innerLoop inner result outerName attrs (.of one) turns ((db.setPool inner b).setPool result bt) s rel
    (turns ≤ wanted.length ∧ run = .error .diverges) ∨ run = .error .exit ∨
    ∃ s' c' rel' b' bt' recCntT' before' n' d', run = .ok (s',rel',(db.setPool inner b').setPool result bt') ∧
      HeapFileScan.Moves k recCnt b s c b' s' c' ∧ InsertFileScan.Inserting kt recCntT' bt' rel' before' n' d' ∧
      Appending heap before' n' d' (new ++ wanted) := by
  intro wanted run
  induction turns generalizing b s c bt rel before n d new recCntT with
  | zero => exact .inl ⟨Nat.zero_le _,rfl⟩
  | succ turns ih =>
    obtain ⟨b1,s1,c1,moves,finds⟩ := HeapFileScan.scanNext_spec owned scanning
    subst wanted run
    unfold innerLoop
    rw [Db.setPool_comm _ _ _ apart]
    generalize found : HeapFileScan.scanNext b s = outcome at finds
    cases finds with
    | eof passed done =>
      have nothing := HeapFileScan.filter_passed passed
      right; right
      refine ⟨s1,c1,rel,b1,bt,recCntT,before,n,d,?_,moves,inserting,?_⟩
      · rw [Db.scanNext_at found,Db.setPool_comm _ _ _ apart]
        rfl
      · rw [nothing,List.map_nil,List.append_nil]
        exact appending
    | record skipped bytes remaining passed accepted current =>
      have next := HeapFileScan.filter_next remaining passed accepted moves.filter
      have here : ∀ d ∈ attrs, Inside d (sourceOf outerName one bytes d) :=
        inside (s1.curRec,bytes) (by rw [remaining]; simp)
      have later : ∀ e ∈ c1.remaining, ∀ d ∈ attrs, Inside d (sourceOf outerName one e.2 d) :=
        fun e ahead => inside e (by rw [remaining]; simp [ahead])
      have filled := gathered_ne_nil here some_attr
      rw [Db.scanNext_at found,ok_bind]
      dsimp only
      rw [Db.getRecord_at,HeapFileScan.getRecord_spec moves.scanning current rfl,ok_bind]
      dsimp only
      rw [joinRecord_inside here,ok_bind,Db.setPool_comm _ _ _ apart.symm]
      obtain ⟨inserted,rel2,bt2,recCnt2,before2,n2,d2,ran,inserting2,told⟩ :=
        InsertFileScan.insertRecord_appends ownedT filled (gathered_int here short) inserting appending
      rw [Db.insertRecord_at ran,ok_bind,next,List.map_cons]
      rcases told with ⟨rid,rfl,appending2⟩ | ⟨status,failed,rfl,_⟩
      · rcases ih moves.scanning later inserting2 appending2 with ⟨few,out⟩ | out | ⟨s3,c3,rel3,b3,bt3,recCnt3,
          before3,n3,d3,looped,moves3,rest⟩
        · exact .inl ⟨Nat.succ_le_succ few,out⟩
        · exact .inr (.inl out)
        · right; right
          rw [List.append_assoc] at rest
          exact ⟨s3,c3,rel3,b3,bt3,recCnt3,before3,n3,d3,looped,moves.trans moves3,rest⟩
      · exact .inr (.inl rfl)

-- The condition that the inner scan starts with for an outer record.
def joinCondition (d1 d2 : AttrDesc) (op : Operator) (one : List UInt8) : Option Condition :=
  (Datatype.ofCode d2.attrType).map fun type => ⟨d2.attrOffset,d2.attrLen,type,one.drop d1.attrOffset.toNat,op.mirror⟩

theorem startJoin_spec (s : HeapFileScan) (d1 d2 : AttrDesc) (op : Operator) (one : List UInt8) :
    s.startScan d2.attrOffset d2.attrLen (Datatype.ofCode d2.attrType) (some (one.drop d1.attrOffset.toNat)) op.mirror =
        (.ok,{s with filter := joinCondition d1 d2 op one}) ∨
    s.startScan d2.attrOffset d2.attrLen (Datatype.ofCode d2.attrType) (some (one.drop d1.attrOffset.toNat))
      op.mirror = (.badScanParm,s) := by
  rw [joinCondition]
  cases Datatype.ofCode d2.attrType with
  | none => exact .inr rfl
  | some type =>
    rw [Option.map_some]
    by_cases sound : (⟨d2.attrOffset,d2.attrLen,type,one.drop d1.attrOffset.toNat,op.mirror⟩ : Condition).Sound
    · exact .inl (s.startScan_sound sound)
    · exact .inr (s.startScan_unsound sound)

-- The output that the inner relation gives for an outer record.
def joinedWith (outerName : Name) (attrs : List AttrDesc) (d1 d2 : AttrDesc) (op : Operator) (inner : Heap)
    (one : List UInt8) :
    List (List UInt8) :=
  ((records inner).filter fun e => HeapFileScan.accepts (joinCondition d1 d2 op one) e.2).map fun e =>
    gathered (sourceOf outerName one e.2) attrs

variable {shelf : Shelf} {cat file1 file2 target : HeldFile} {d1 d2 : AttrDesc}

-- With the inner scan opened, either its condition is refused or the inner loop runs under it, unless the
-- outer record ends before the bytes that the filter points at.
theorem joinOuter_opened (outer result : Name) (attrs : List AttrDesc) {db1 : Db} {s1 : HeapFileScan} {one : List UInt8}
    (made : db.newHeapFileScan inner = .ok (.ok,s1,db1)) (d1 d2 : AttrDesc) (op : Operator) (turns : Nat)
    (rel : InsertFileScan) :
    joinOuter outer inner result attrs d1 d2 op turns db (.of one) rel = (do
      let (innerScan,rel,db) ← innerLoop inner result outer attrs (.of one) turns db1
        {s1 with filter := joinCondition d1 d2 op one} rel
      return (.ok,rel,← db.deleteHeapFileScan inner innerScan)) ∨
    joinOuter outer inner result attrs d1 d2 op turns db (.of one) rel =
      (do return (.badScanParm,rel,← db1.deleteHeapFileScan inner s1)) ∨
    joinOuter outer inner result attrs d1 d2 op turns db (.of one) rel = .error .undefined := by
  rw [joinOuter,made,ok_bind]
  dsimp only
  rw [if_neg (not_not_intro rfl),Record.of]
  dsimp only
  rcases startJoin_spec s1 d1 d2 op one with started | refused
  · rw [started]
    dsimp only
    rw [if_neg (not_not_intro rfl)]
    by_cases beyond : d1.attrOffset < 0 ∨ (one.length : Int) < d1.attrOffset + d2.attrLen
    · rw [if_pos beyond]
      exact .inr (.inr rfl)
    · rw [if_neg beyond]
      exact .inl rfl
  · rw [refused]
    dsimp only
    rw [if_pos (by decide)]
    exact .inr (.inl rfl)

theorem joinOuter_spec (d1 d2 : AttrDesc) {rel : InsertFileScan} {one : List UInt8} (op : Operator)
    (apart : inner ≠ result) (turns : Nat)
    (some_attr : attrs ≠ []) (short : (attrs.map AttrDesc.attrLen).sum < 2 ^ 31) (present : shelf inner = some file2)
    (inside : ∀ e ∈ records file2.heap, ∀ d ∈ attrs, Inside d (sourceOf outer one e.2 d))
    (writes : db.Writes shelf result target rel before n d recCntT) (appending : Appending heap before n d new) :
    let wanted := joinedWith outer attrs d1 d2 op file2.heap one
    let run := joinOuter outer inner result attrs d1 d2 op turns db (.of one) rel
    (turns ≤ (records file2.heap).length ∧ run = .error .diverges) ∨ (∃ a, a ≠ .diverges ∧ run = .error a) ∨
    ∃ status rel' db' recCntT' before' n' d' more, run = .ok (status,rel',db') ∧
      db'.Writes shelf result target rel' before' n' d' recCntT' ∧ Appending heap before' n' d' (new ++ more) ∧
      (status = .ok ∧ more = wanted ∨ status = .badScanParm ∧ more = []) := by
  intro wanted run
  have there : (Function.update shelf result (some (Db.written target rel before n d recCntT)) : Shelf) inner =
      some file2 := by
    rw [Function.update_of_ne apart]
    exact present
  obtain ⟨db1,s1,c1,made,scans,whole,all,clear⟩ := writes.stands.start_scan there
  obtain ⟨b,back,scanning⟩ := scans.resume
  have ownedS : file2.books.opened.Owned := scans.owned
  have ownedT : target.books.opened.Owned := writes.owned
  -- The object that inserts is found under the open inner scan.
  obtain ⟨bt,at_result,inserting⟩ := scans.stands.resume_insert
    (by rw [Function.update_of_ne apart.symm,Function.update_self]) writes.there
  subst run
  rcases joinOuter_opened outer result attrs made d1 d2 op turns rel with begun | refused | beyond
  · rw [begun]
    have same : (c1.remaining.filter fun e => HeapFileScan.matchRec {s1 with filter := joinCondition d1 d2 op one}
      (.of e.2)).map
        (fun e => gathered (sourceOf outer one e.2) attrs) = wanted := by
      rw [all]
      exact congrArg _ (List.filter_congr fun e _ => HeapFileScan.matchRec_accepts rfl e.2)
    have placed : db1 = (db1.setPool inner b).setPool result bt := by rw [← back,← at_result]
    have loops := innerLoop_spec db1 outer one apart turns ownedS ownedT some_attr short
      (scanning.filtered (joinCondition d1 d2 op one)) (by rw [all]; exact inside) inserting appending
    rw [← placed,same] at loops
    rcases loops with ⟨few,out⟩ | out | ⟨s2,c2,rel2,b2,bt2,recCnt2,before2,n2,d2,looped,moves,inserting2,appending2⟩
    · left
      have fewer : wanted.length ≤ (records file2.heap).length := by
        rw [← same,List.length_map,← all]
        exact List.length_filter_le _ _
      exact ⟨Nat.le_trans few fewer,by rw [out]; rfl⟩
    · right; left
      exact ⟨.exit,Abort.noConfusion,by rw [out]; rfl⟩
    · right; right
      have both := scans.both apart moves.scanning writes.named writes.owned inserting2
      obtain ⟨db3,deleted,stands3⟩ := both.delete (by rw [Function.update_of_ne apart]; exact present)
        (moves.heap.trans whole)
      refine ⟨.ok,rel2,db3,recCnt2,before2,n2,d2,wanted,?_,⟨stands3,⟨bt2,inserting2⟩,writes.named,writes.owned⟩,
        appending2,.inl ⟨rfl,rfl⟩⟩
      rw [looped,ok_bind]
      dsimp only
      rw [deleted]
      rfl
  · right; right
    obtain ⟨db3,deleted,stands3⟩ := scans.delete there whole
    refine ⟨.badScanParm,rel,db3,recCntT,before,n,d,[],?_,⟨stands3,writes.there,writes.named,writes.owned⟩,
      ?_,.inr ⟨rfl,rfl⟩⟩
    · rw [refused,deleted]
      rfl
    · rw [List.append_nil]
      exact appending
  · exact .inr (.inl ⟨.undefined,Abort.noConfusion,beyond⟩)

-- The output for all outer records that are still ahead.
def joined (outerName : Name) (attrs : List AttrDesc) (d1 d2 : AttrDesc) (op : Operator) (ahead : List Entry)
    (inner : Heap) : List (List UInt8) :=
  ahead.flatMap fun e => joinedWith outerName attrs d1 d2 op inner e.2

-- A turn of the outer loop that has read a record.
theorem outerLoop_record (db : Db) (outer inner result : Name) (attrs : List AttrDesc) (d1 d2 : AttrDesc)
    (op : Operator) (innerTurns turns : Nat)
    {s s1 : HeapFileScan} {b1 : Pool} {rid : RID} {rec : Record} (rel : InsertFileScan)
    (found : HeapFileScan.scanNext b s = .ok (.ok rid,s1,b1))
    (read : HeapFileScan.getRecord b1 s1 = .ok (.ok rec)) :
    outerLoop outer inner result attrs d1 d2 op innerTurns (turns + 1) (db.setPool outer b) s rel = (do
      let (status,rel,db) ← joinOuter outer inner result attrs d1 d2 op innerTurns (db.setPool outer b1) rec rel
      if status ≠ .ok then return (status,s1,rel,db)
      outerLoop outer inner result attrs d1 d2 op innerTurns turns db s1 rel) := by
  rw [outerLoop,Db.scanNext_at found,ok_bind]
  dsimp only
  rw [Db.getRecord_at,read,ok_bind]

theorem outerLoop_spec (d1 d2 : AttrDesc) {s : HeapFileScan} {rel : InsertFileScan} {c : Cursor} (op : Operator)
    (apart1 : outer ≠ result)
    (apart2 : inner ≠ result) (innerTurns turns : Nat) (some_attr : attrs ≠ [])
    (short : (attrs.map AttrDesc.attrLen).sum < 2 ^ 31)
    (at_outer : shelf outer = some file1) (at_inner : shelf inner = some file2) (named : result ≠ [])
    (ownedT : target.books.Owned)
    (inside : ∀ e1 ∈ c.remaining, ∀ e2 ∈ records file2.heap, ∀ d ∈ attrs, Inside d (sourceOf outer e1.2 e2.2 d))
    (scans : db.Scans (Function.update shelf result (some (Db.written target rel before n d recCntT))) outer file1 s c)
    (whole : c.heap = file1.heap) (clear : s.filter = none)
    (there : ∃ bt, InsertFileScan.Inserting target.books.opened recCntT bt rel before n d)
    (appending : Appending heap before n d new) :
    let wanted := joined outer attrs d1 d2 op c.remaining file2.heap
    let run := outerLoop outer inner result attrs d1 d2 op innerTurns turns db s rel
    ((turns ≤ c.remaining.length ∨ innerTurns ≤ (records file2.heap).length) ∧ run = .error .diverges) ∨
    (∃ a, a ≠ .diverges ∧ run = .error a) ∨
    ∃ status s' c' rel' db' recCntT' before' n' d' more, run = .ok (status,s',rel',db') ∧
      db'.Scans (Function.update shelf result (some (Db.written target rel' before' n' d' recCntT'))) outer
        file1 s' c' ∧
      c'.heap = file1.heap ∧ (∃ bt, InsertFileScan.Inserting target.books.opened recCntT' bt rel' before' n' d') ∧
      Appending heap before' n' d' (new ++ more) ∧ more <+: wanted ∧ (status = .ok → more = wanted) := by
  intro wanted run
  induction turns generalizing db s c rel before n d new recCntT with
  | zero => exact .inl ⟨.inl (Nat.zero_le _),rfl⟩
  | succ turns ih =>
    subst wanted run
    obtain ⟨b,back,scanning⟩ := scans.resume
    have owned : file1.books.opened.Owned := scans.owned
    obtain ⟨b1,s1,c1,moves,clear1,found⟩ := HeapFileScan.scanNext_all owned scanning clear
    have whole1 : (Db.scanned file1 s1 c1).heap = file1.heap := moves.heap.trans whole
    have scans1 := scans.stands.scans scans.named scans.owned moves.scanning
    rcases found with ⟨eof,nothing,_⟩ | ⟨bytes,found,read,remaining⟩
    · right; right
      refine ⟨.ok,s1,c1,rel,db.setPool outer b1,recCntT,before,n,d,[],?_,scans1,whole1,there,?_,List.nil_prefix,
        fun _ => ?_⟩
      · rw [outerLoop,back,Db.scanNext_at eof,Db.setPool_setPool]
        rfl
      · rw [List.append_nil]
        exact appending
      · rw [nothing]
        rfl
    · have here : (s1.curRec,bytes) ∈ c.remaining := by rw [remaining]; exact List.mem_cons_self ..
      have later : ∀ e ∈ c1.remaining, e ∈ c.remaining := fun e ahead => by
        rw [remaining]; exact List.mem_cons_of_mem _ ahead
      obtain ⟨file2',at_inner',same⟩ := Db.find_opened at_inner at_outer whole1
      have stands1 := scans1.stands
      rw [Function.update_comm apart1.symm] at stands1
      have begun := outerLoop_record db outer inner result attrs d1 d2 op innerTurns turns rel found read
      rw [← back] at begun
      have steps := joinOuter_spec d1 d2 op apart2 innerTurns some_attr short at_inner'
        (by rw [same]; exact inside _ here) ⟨stands1,there,named,ownedT⟩ appending
      rw [same] at steps
      rw [begun]
      have next : joined outer attrs d1 d2 op c.remaining file2.heap =
          joinedWith outer attrs d1 d2 op file2.heap bytes ++ joined outer attrs d1 d2 op c1.remaining file2.heap := by
        rw [remaining]
        rfl
      rcases steps with ⟨few,out⟩ | out | ⟨status,rel2,db2,recCnt2,before2,n2,d2',more,ran,writes,appending2,gained⟩
      · exact .inl ⟨.inr few,by rw [out]; rfl⟩
      · obtain ⟨a,other,out⟩ := out
        exact .inr (.inl ⟨a,other,by rw [out]; rfl⟩)
      · have stands2 := writes.stands
        rw [Function.update_comm apart1] at stands2
        rw [ran,ok_bind]
        dsimp only
        rcases gained with ⟨rfl,rfl⟩ | ⟨rfl,rfl⟩
        · rw [if_neg (not_not_intro rfl),next]
          rcases ih (fun e1 ahead => inside e1 (later e1 ahead)) ⟨stands2,⟨b1,moves.scanning⟩,scans.named,scans.owned⟩
              whole1 clear1 writes.there appending2 with
            ⟨few,out⟩ | out | ⟨status,s3,c3,rel3,db3,recCnt3,before3,n3,d3,more,looped,scans3,whole3,there3,
              appending3,part,full⟩
          · refine .inl ⟨few.imp (fun few => ?_) id,out⟩
            rw [remaining,List.length_cons]
            omega
          · exact .inr (.inl out)
          · right; right
            rw [List.append_assoc] at appending3
            exact ⟨status,s3,c3,rel3,db3,recCnt3,before3,n3,d3,_,looped,scans3,whole3,there3,appending3,
              (List.prefix_append_right_inj _).mpr part,fun fine => by rw [full fine]⟩
        · right; right
          rw [if_pos (by decide)]
          exact ⟨.badScanParm,s1,c1,rel2,db2,recCnt2,before2,n2,d2',[],rfl,
            ⟨stands2,⟨b1,moves.scanning⟩,scans.named,scans.owned⟩,whole1,
            writes.there,appending2,List.nil_prefix,fun fine => by cases fine⟩

-- An attribute of one of the two relations of a query.
def FoundIn (cat : Heap) (one two : Name) (info : AttrInfo) (d : AttrDesc) : Prop := Found cat one info d ∨
    Found cat two info d

theorem FoundIn.listed {cat : Heap} {one two : Name} {infos : List AttrInfo} {descs : List AttrDesc}
    (found : List.Forall₂ (FoundIn cat one two) infos descs) : ∀ d ∈ descs, d ∈ attributes cat one ∨
    d ∈ attributes cat two := by
  induction found with
  | nil => exact fun d member => nomatch member
  | cons here _ ih =>
    intro d member
    rcases List.mem_cons.mp member with rfl | later
    · exact here.imp (fun found => (attrOf_mem found.attr).1) (fun found => (attrOf_mem found.attr).1)
    · exact ih d later

-- Where the attributes of both relations lie inside their records, so do those a pair gives.
theorem FoundIn.inside {cat : Heap} {one two : Name} {infos : List AttrInfo} {descs : List AttrDesc}
    {heap1 heap2 : Heap}
    (found : List.Forall₂ (FoundIn cat one two) infos descs) (laid1 : ∀ e ∈ records heap1, ∀ d ∈
      attributes cat one, Inside d e.2)
    (laid2 : ∀ e ∈ records heap2, ∀ d ∈ attributes cat two, Inside d e.2) (same : one = two → heap1 = heap2)
    {e1 e2 : Entry}
    (member1 : e1 ∈ records heap1) (member2 : e2 ∈ records heap2) : ∀ d ∈
    descs, Inside d (sourceOf one e1.2 e2.2 d) := by
  intro d member
  rw [sourceOf]
  rcases FoundIn.listed found d member with first | second
  · rw [if_pos (attributes_relName first)]
    exact laid1 e1 member1 d first
  · by_cases own : d.relName = one
    · rw [if_pos own]
      have equal : one = two := own.symm.trans (attributes_relName second)
      rw [same equal] at member1
      exact laid2 e1 member1 d second
    · rw [if_neg own]
      exact laid2 e2 member2 d second

-- A join query over relations of a directory that stands, with its attributes found in the catalog.
structure JoinLaid (db : Db) (shelf : Shelf) (cat file1 file2 target : HeldFile) (one two result : Name)
    (infos : List AttrInfo)
    (attrs : List AttrDesc) (attr1 attr2 : AttrInfo) (d1 d2 : AttrDesc) : Prop where
  stands : db.Stands shelf
  catalog : shelf attrCatName = some cat
  wide : Rows cat.heap AttrDesc.size
  clean1 : 0 ∉ one
  clean2 : 0 ∉ two
  at_one : shelf one = some file1
  at_two : shelf two = some file2
  at_result : shelf result = some target
  laid1 : ∀ e ∈ records file1.heap, ∀ d ∈ attributes cat.heap one, Inside d e.2
  laid2 : ∀ e ∈ records file2.heap, ∀ d ∈ attributes cat.heap two, Inside d e.2
  some_attr : infos ≠ []
  found : List.Forall₂ (FoundIn cat.heap one two) infos attrs
  found1 : Found cat.heap one attr1 d1
  found2 : Found cat.heap two attr2 d2

-- One that compares attributes of the same length.
structure JoinQuery (db : Db) (shelf : Shelf) (cat file1 file2 target : HeldFile) (one two result : Name)
    (infos : List AttrInfo)
    (attrs : List AttrDesc) (attr1 attr2 : AttrInfo) (d1 d2 : AttrDesc) : Prop
    extends JoinLaid db shelf cat file1 file2 target one two result infos attrs attr1 attr2 d1 d2 where
  lengths : d1.attrLen = d2.attrLen

section query

variable {infos : List AttrInfo} {attr1 attr2 : AttrInfo}

theorem JoinLaid.some_desc (query : JoinLaid db shelf cat file1 file2 target outer inner result infos attrs
    attr1 attr2 d1 d2) :
    attrs ≠ [] := by
  rintro rfl
  exact query.some_attr (List.forall₂_nil_right_iff.mp query.found)

theorem JoinLaid.inside (query : JoinLaid db shelf cat file1 file2 target outer inner result infos attrs
    attr1 attr2 d1 d2) :
    ∀ e1 ∈ records file1.heap, ∀ e2 ∈ records file2.heap, ∀ d ∈ attrs, Inside d (sourceOf outer e1.2 e2.2 d) := by
  intro e1 member1 e2 member2
  refine FoundIn.inside query.found query.laid1 query.laid2 (fun equal => ?_) member1 member2
  have at_one := query.at_one
  rw [equal] at at_one
  cases at_one.symm.trans query.at_two
  rfl

theorem JoinQuery.pointer (query : JoinQuery db shelf cat file1 file2 target outer inner result infos attrs
    attr1 attr2 d1 d2) :
    ∀ e1 ∈ records file1.heap, 0 ≤ d1.attrOffset ∧ d1.attrOffset + d2.attrLen ≤ e1.2.length := by
  intro e1 member1
  obtain ⟨low,_,high⟩ := query.laid1 e1 member1 d1 (attrOf_mem query.found1.attr).1
  rw [← query.lengths]
  exact ⟨low,high⟩

-- What is left to do when the attributes have been looked up, unless the caller's types differ.
theorem QU_NL_Join_looked (query : JoinLaid db shelf cat file1 file2 target outer inner result infos attrs
    attr1 attr2 d1 d2)
    (op : Operator) (turns : Nat) :
    QU_NL_Join turns db result infos attr1 op attr2 = .ok (.attrTypeMismatch,db) ∨
    ∃ db', db'.Stands shelf ∧ QU_NL_Join turns db result infos attr1 op attr2 =
      recLen attrs >>= fun _ => joinScan turns db' result attrs d1 d2 op := by
  have named1 := (query.stands outer file1 query.at_one).1
  have named2 := (query.stands inner file2 query.at_two).1
  unfold QU_NL_Join
  by_cases mismatch : attr1.attrType ≠ attr2.attrType ∨ attr1.attrLen ≠ attr2.attrLen
  · rw [if_pos mismatch]
    exact .inl rfl
  · obtain ⟨db1,looked,stands1⟩ := projDescs_spec query.stands query.catalog query.wide (query.found.imp fun _ _ here =>
      here.elim (fun first => ⟨outer,named1,query.clean1,first⟩) (fun second => ⟨inner,named2,query.clean2,second⟩))
    obtain ⟨db2,asked1,stands2⟩ := AttrCatalog.getInfo_found stands1 query.catalog query.wide query.clean1
      named1 query.found1.attrName
      query.found1.attr ⟨[],[],0,0,0⟩
    obtain ⟨db3,asked2,stands3⟩ := AttrCatalog.getInfo_found stands2 query.catalog query.wide query.clean2
      named2 query.found2.attrName
      query.found2.attr ⟨[],[],0,0,0⟩
    refine .inr ⟨db3,stands3,?_⟩
    rw [if_neg mismatch,looked,ok_bind]
    dsimp only
    rw [if_neg (not_not_intro rfl),query.found1.relName,asked1,ok_bind]
    dsimp only
    rw [if_neg (not_not_intro rfl),query.found2.relName,asked2,ok_bind]
    dsimp only
    rw [if_neg (not_not_intro rfl)]

theorem joinScan_spec (stands : db.Stands shelf) (name1 : d1.relName = outer) (name2 : d2.relName = inner)
    (apart1 : outer ≠ result)
    (apart2 : inner ≠ result) (at_outer : shelf outer = some file1) (at_inner : shelf inner = some file2)
    (at_result : shelf result = some target) (some_attr : attrs ≠ []) (short : (attrs.map AttrDesc.attrLen).sum <
      2 ^ 31)
    (inside : ∀ e1 ∈ records file1.heap, ∀ e2 ∈ records file2.heap, ∀ d ∈ attrs, Inside d (sourceOf outer e1.2 e2.2 d))
    (op : Operator) (turns : Nat) :
    let run := joinScan turns db result attrs d1 d2 op
    ((turns ≤ (records file1.heap).length ∨ turns ≤ (records file2.heap).length) ∧ run = .error .diverges) ∨
    (∃ a, a ≠ .diverges ∧ run = .error a) ∨
    ∃ status db', run = .ok (status,db') ∧
      Answered shelf result target (joined outer attrs d1 d2 op (records file1.heap) file2.heap) status db' := by
  intro run
  obtain ⟨named,ownedT,_⟩ := stands result target at_result
  obtain ⟨db1,rel,before,n,d,made,split,writes⟩ := stands.start_insert at_result
  have at_outer' : (Function.update shelf result (some (Db.written target rel before n d target.recCnt)) : Shelf)
      outer = some file1 := by
    rw [Function.update_of_ne apart1]
    exact at_outer
  obtain ⟨db2,s,c,opened,scans,whole,all,clear⟩ := writes.stands.start_scan at_outer'
  have started : s.startScan 0 0 (some .string) none .eq = (.ok,s) := by rw [HeapFileScan.startScan,← clear]
  have loops := outerLoop_spec d1 d2 op apart1 apart2 turns turns some_attr short at_outer at_inner named ownedT
    (by rw [all]; exact inside) scans whole clear writes.there (Appending.start split)
  rw [all] at loops
  subst run
  rw [joinScan,made,ok_bind]
  dsimp only
  rw [if_neg (not_not_intro rfl),name1,name2,opened,ok_bind]
  dsimp only
  rw [if_neg (not_not_intro rfl),started]
  dsimp only
  rcases loops with ⟨few,out⟩ | out | ⟨status,s1,c1,rel1,db3,recCnt1,before1,n1,slots1,more,looped,scans1,
    whole1,there1,appending,part,full⟩
  · exact .inl ⟨few,by rw [out]; rfl⟩
  · obtain ⟨a,other,out⟩ := out
    exact .inr (.inl ⟨a,other,by rw [out]; rfl⟩)
  · right; right
    have at_outer1 : (Function.update shelf result (some (Db.written target rel1 before1 n1 slots1 recCnt1)) : Shelf)
        outer = some file1 := by
      rw [Function.update_of_ne apart1]
      exact at_outer
    obtain ⟨db4,deleted,stands4⟩ := scans1.delete at_outer1 whole1
    obtain ⟨db5,closed,stands5⟩ := Db.Writes.delete ⟨stands4,there1,named,ownedT⟩
    refine ⟨status,db5,?_,⟨target.books,before1 ++ [(n1,slots1)],recCnt1⟩,more,stands5,rfl,appending.gains,part,full⟩
    rw [looped,ok_bind]
    dsimp only
    rw [deleted,ok_bind,closed]
    rfl

-- The three ways a join can go: too few turns, a failed assertion or another abort, or an end with a
-- status.
theorem QU_NL_Join_spec (query : JoinLaid db shelf cat file1 file2 target outer inner result infos attrs
    attr1 attr2 d1 d2)
    (apart1 : outer ≠ result) (apart2 : inner ≠ result) (op : Operator) (turns : Nat) :
    let run := QU_NL_Join turns db result infos attr1 op attr2
    ((turns ≤ (records file1.heap).length ∨ turns ≤ (records file2.heap).length) ∧ run = .error .diverges) ∨
    (∃ a, a ≠ .diverges ∧ run = .error a) ∨
    ∃ status db', run = .ok (status,db') ∧
      Answered shelf result target (joined outer attrs d1 d2 op (records file1.heap) file2.heap) status db' := by
  intro run
  rcases QU_NL_Join_looked query op turns with mismatch | ⟨db1,stands1,looked⟩
  · right; right
    refine ⟨_,_,mismatch,target,[],?_,rfl,Gains.none _,List.nil_prefix,fun fine => by cases fine⟩
    rw [← query.at_result,Function.update_eq_self]
    exact query.stands
  · subst run
    rw [looked]
    cases total : recLen attrs with
    | error a =>
      cases recLen_error total
      exact .inr (.inl ⟨.undefined,Abort.noConfusion,rfl⟩)
    | ok total' =>
      exact joinScan_spec stands1 (attributes_relName (attrOf_mem query.found1.attr).1)
        (attributes_relName (attrOf_mem query.found2.attr).1) apart1 apart2 query.at_one query.at_two
        query.at_result query.some_desc
        (recLen_ok total) query.inside op turns

end query

-- R.a < S.a with R.b and S.a selected into T.
theorem sampleDb_query : ∃ shelf cat r s t, shelf [84] = some t ∧
    JoinQuery sampleDb shelf cat r s t [82] [83] [84] [⟨[82],[98],-1,-1,none⟩,⟨[83],[97],-1,-1,none⟩]
      [⟨[82],[98],4,1,4⟩,⟨[83],[97],0,1,4⟩]
      ⟨[82],[97],-1,-1,none⟩ ⟨[83],[97],-1,-1,none⟩ ⟨[82],[97],0,1,4⟩ ⟨[83],[97],0,1,4⟩ ∧
    (records r.heap).map Prod.snd = [[1,0,0,0,2,0,0,0]] ∧ (records s.heap).map Prod.snd = [[1,0,0,0],[3,0,0,0]] := by
  obtain ⟨shelf,cat,r,s,t,stands,catalog,wide,at_r,at_s,at_t,recs_r,recs_s,_,attrs_r,attrs_s⟩ := sampleDb_stands
  have at_b : Found cat.heap [82] ⟨[82],[98],-1,-1,none⟩ ⟨[82],[98],4,1,4⟩ :=
    ⟨rfl,by decide,by rw [attrOf,attrs_r]; decide⟩
  have at_a : Found cat.heap [82] ⟨[82],[97],-1,-1,none⟩ ⟨[82],[97],0,1,4⟩ :=
    ⟨rfl,by decide,by rw [attrOf,attrs_r]; decide⟩
  have in_s : Found cat.heap [83] ⟨[83],[97],-1,-1,none⟩ ⟨[83],[97],0,1,4⟩ :=
    ⟨rfl,by decide,by rw [attrOf,attrs_s]; decide⟩
  refine ⟨shelf,cat,r,s,t,at_t,
    ⟨⟨stands,catalog,wide,by decide,by decide,at_r,at_s,at_t,laid_of_bytes attrs_r recs_r (by decide),
    laid_of_bytes attrs_s recs_s (by decide),by
      decide,.cons (.inl at_b) (.cons (.inr in_s) .nil),at_a,in_s⟩,rfl⟩,recs_r,recs_s⟩

theorem sampleDb_joins : ∃ db', QU_NL_Join 3 sampleDb [84] [⟨[82],[98],-1,-1,none⟩,⟨[83],[97],-1,-1,none⟩]
    ⟨[82],[97],-1,-1,none⟩ .lt
    ⟨[83],[97],-1,-1,none⟩ = .ok (.ok,db') := Db.exists_ok (by decide +kernel)

end Minirel
