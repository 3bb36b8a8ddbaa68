import Minirel.CatalogCalls

namespace Minirel
open ByteMemory SlotDirectory Page Heap

namespace Heap

-- Going from page n along nextPage until the -1: initialised data pages, with these numbers.
def Follows (view : Int → Option Page) : Int → List Int → Prop
  | n,[] => n = -1
  | n,m::rest => n = m ∧ ∃ page d, view m = some page ∧ Represents page m d ∧ Follows view page.nextPage rest

structure Linked (view : Int → Option Page) (hdr first : Int) : Prop where
  walk : ∃ header pages, view hdr = some header ∧ FileHdrPage.firstPage header = first ∧ Follows view first pages ∧
    pages.Nodup ∧
    pages.getLast? = some (FileHdrPage.lastPage header) ∧ FileHdrPage.pageCnt header = pages.length ∧ hdr ∉ pages

variable {view : Int → Option Page} {heap : Heap} {hdr recCnt : Int}

theorem Chain.follows (chain : Chain view heap (-1)) : Follows view (headNo heap (-1)) (pageNos heap) := by
  induction heap with
  | nil => rfl
  | cons page rest ih =>
    obtain ⟨n,d⟩ := page
    obtain ⟨⟨p,_,seen,held,next⟩,tail⟩ := chain
    exact ⟨rfl,p,d,seen,held,by rw [next]; exact ih tail⟩

theorem Stored.linked (stored : Stored view hdr heap recCnt) (few : heap.length < 2 ^ 31) :
    Linked view hdr (headNo heap (-1)) := by
  obtain ⟨header,seen,first,last,pages,_⟩ := stored.header
  refine ⟨header,pageNos heap,seen,first,stored.chain.follows,stored.nodup,?_,?_,stored.apart⟩
  · obtain ⟨before,⟨n,d⟩,split⟩ := List.eq_nil_or_concat heap |>.resolve_left stored.some_page
    rw [List.concat_eq_append] at split
    rw [last,split,lastNo_concat,pageNos_append]
    simp [pageNos]
  · rw [pages,int_bmod (by omega) (by omega),pageNos,List.length_map]

theorem headNo_set (before after : Heap) (n : Int) (d d' : Slots) (stop : Int) :
    headNo (before ++ (n,d')::after) stop = headNo (before ++ (n,d)::after) stop := by
  rw [headNo_append,headNo_append]
  rfl

theorem headNo_more (before : Heap) (n : Int) (d : Slots) (more : Heap) (stop : Int) :
    headNo ((before ++ [(n,d)]) ++ more) stop = headNo (before ++ [(n,d)]) stop := by
  rw [headNo_append,headNo_append,headNo_append]
  rfl

end Heap

theorem InsertFileScan.storable_replicate (v : UInt8) {n : Nat} (low : 1 ≤ n) (high : n < 2 ^ 31) :
    Storable (List.replicate n v) := by
  rw [Storable,List.length_replicate]
  exact ⟨low,high⟩

-- The object that a client has open; `found` tells whether the last scanNext was a success.
inductive OpenObject where
  | none
  | inserting (s : InsertFileScan)
  | scanning (s : HeapFileScan) (found : Bool)

inductive FileCall where
  | createHeapFile
  | openInsert
  | openScan (offset length : Int) (type : Option Datatype) (filter : Option (List UInt8)) (op : Operator)
  | insertRecord (bytes : List UInt8)
  | scanNext
  | deleteRecord
  | close
  deriving DecidableEq,Repr

-- The client of a heap file that has one object open on it at a time.
structure OneClient where
  db : Db
  object : OpenObject

namespace OneClient

def step (name : Name) (x : OneClient) : FileCall → Except Abort OneClient
  | .createHeapFile => do
    let (_,db) ← x.db.createHeapFile name
    return ⟨db,x.object⟩
  | .openInsert =>
    match x.object with
    | .none => do
      let (_,s,db) ← x.db.newInsertFileScan name
      return ⟨db,.inserting s⟩
    | _ => return x
  | .openScan offset length type filter op =>
    match x.object with
    | .none => do
      let (_,s,db) ← x.db.newHeapFileScan name
      let (_,s) := s.startScan offset length type filter op
      return ⟨db,.scanning s false⟩
    | _ => return x
  | .insertRecord bytes =>
    match x.object with
    | .inserting s => do
      let (_,s,db) ← x.db.insertRecord name s (.of bytes)
      return ⟨db,.inserting s⟩
    | _ => return x
  | .scanNext =>
    match x.object with
    | .scanning s _ => do
      let (result,s,db) ← x.db.scanNext name s
      return ⟨db,.scanning s result.isOk⟩
    | _ => return x
  | .deleteRecord =>
    match x.object with
    | .scanning s true => do
      let (_,s,db) ← x.db.deleteRecord name s
      return ⟨db,.scanning s true⟩
    | _ => return x
  | .close =>
    match x.object with
    | .none => return x
    | .inserting s => do return ⟨← x.db.deleteInsertFileScan name s,.none⟩
    | .scanning s _ => do return ⟨← x.db.deleteHeapFileScan name s,.none⟩

def run (name : Name) : OneClient → List FileCall → Except Abort OneClient
  | x,[] => return x
  | x,call::rest => do run name (← step name x call) rest

-- The life of a heap file from createHeapFile on.
def lifetime (name : Name) (db : Db) (calls : List FileCall) : Except Abort OneClient := do
  let (_,db) ← db.createHeapFile name
  run name ⟨db,.none⟩ calls

-- Where the object stands; k has the pins of everybody else.
inductive Engaged (k : Pool.Books) (first : Int) (b : Pool) : OpenObject → Prop where
  | idle (heap : Heap) (recCnt : Int) (kept : b.Keeps k) (stored : Stored b.view k.first heap recCnt)
      (start : headNo heap (-1) = first) :
      Engaged k first b .none
  | inserting (s : InsertFileScan) (before : Heap) (n : Int) (d : Slots) (recCnt : Int)
      (inserting : InsertFileScan.Inserting k.opened recCnt b s before n d)
      (start : headNo (before ++ [(n,d)]) (-1) = first) :
      Engaged k first b (.inserting s)
  | scanning (s : HeapFileScan) (c : Cursor) (recCnt : Int) (found : Bool)
      (scanning : HeapFileScan.Scanning k.opened recCnt b s c)
      (start : headNo c.heap (-1) = first) (passed : found = true → ∃ i, c.next = i + 1) :
      Engaged k first b (.scanning s found)

structure Good (name : Name) (hdr first : Int) (x : OneClient) : Prop where
  named : name ≠ []
  there : ∃ k b, k.first = hdr ∧ k.Owned ∧ x.db.files name = some b ∧ Engaged k first b x.object

variable {k : Pool.Books} {hdr first : Int} {b : Pool} {o : OpenObject} {name : Name} {x : OneClient} {db : Db}

theorem Engaged.linked (engaged : Engaged k first b o) : Linked b.view k.first first := by
  have bounded : ∀ {k' : Pool.Books} {heap : Heap} {recCnt : Int}, b.Keeps k' → Stored b.view k.first heap recCnt →
    headNo heap (-1) = first →
      Linked b.view k.first first := by
    intro k' heap recCnt kept stored start
    have pages := HeapFileScan.few_pages kept stored.chain stored.nodup
    have bound := kept.counted.bound
    have linked := stored.linked (by omega)
    rwa [start] at linked
  cases engaged with
  | idle heap recCnt kept stored start => exact bounded kept stored start
  | inserting s before n d recCnt inserting start => exact bounded inserting.kept inserting.stored start
  | scanning s c recCnt found scanning start => exact bounded scanning.kept scanning.stored start

-- createHeapFile on a file that is there opens it once more and says FILEEXISTS.
theorem Engaged.opened (engaged : Engaged k first b o) : Engaged k.opened first b.openFile.2 o := by
  cases engaged with
  | idle heap recCnt kept stored start =>
    obtain ⟨b',opened,kept',view⟩ := kept.openFile
    rw [opened]
    exact .idle heap recCnt kept' (by rw [view]; exact stored) start
  | inserting s before n d recCnt inserting start =>
    obtain ⟨b',opened,kept',view⟩ := inserting.kept.openFile
    rw [opened]
    exact .inserting s before n d recCnt
      ⟨kept',by rw [view]; exact inserting.stored,inserting.headerPage,inserting.headerPageNo,
      inserting.curPage,inserting.curPageNo⟩ start
  | scanning s c recCnt found scanning start passed =>
    obtain ⟨b',opened,kept',view⟩ := scanning.kept.openFile
    rw [opened]
    exact .scanning s c recCnt found
      ⟨kept',by rw [view]; exact scanning.stored,scanning.headerPage,scanning.headerPageNo,
      scanning.curPage,scanning.curPageNo,scanning.slot⟩ start passed

theorem Good.setPool (good : Good name hdr first x) (same : k.first = hdr) (owned : k.Owned)
    (engaged : Engaged k first b o) (db : Db) :
    Good name hdr first ⟨db.setPool name b,o⟩ := ⟨good.named,k,b,same,owned,Db.setPool_same ..,engaged⟩

-- A record goes onto the last page or onto one behind it, or the call fails; the first page stays.
theorem insertRecord_spec {s : InsertFileScan} {bytes : List UInt8} (storable : InsertFileScan.Storable bytes)
    (good : Good name hdr first ⟨db,.inserting s⟩) :
    ∃ result s' db', db.insertRecord name s (.of bytes) = .ok (result,s',db') ∧
      Good name hdr first ⟨db',.inserting s'⟩ := by
  obtain ⟨k,b,same,owned,found,engaged⟩ := good.there
  have owned' : k.opened.Owned := owned
  cases engaged with
  | inserting _ before n d recCnt inserting start =>
    have outcome := inserting.insertRecord_spec owned' (List.ne_nil_of_length_pos storable.1) storable.2
    have back : ∀ {result s' b'}, InsertFileScan.insertRecord b s (.of bytes) = .ok (result,s',b') →
      Engaged k first b' (.inserting s') →
        ∃ result s' db', db.insertRecord name s (.of bytes) = .ok (result,s',db') ∧
          Good name hdr first ⟨db',.inserting s'⟩ := by
      intro result s' b' ran engaged'
      refine ⟨result,s',db.setPool name b',?_,good.setPool same owned engaged' db⟩
      have at_pool : (db.setPool name b).insertRecord name s (.of bytes) = .ok (result,s',db.setPool name b') :=
        Db.insertRecord_at ran
      rwa [Db.setPool_self found] at at_pool
    generalize ran : InsertFileScan.insertRecord b s (.of bytes) = result at outcome back
    cases outcome with
    | here b' s' done =>
      exact back rfl (.inserting s' before n _ _ done ((headNo_set before [] n d _ (-1)).trans start))
    | newPage b' s' m done => exact back rfl (.inserting s' _ m _ _ done ((headNo_more before n d _ (-1)).trans start))
    | refused b' s' status _ still => exact back rfl (.inserting s' before n d _ still start)
    | tooLong b' s' m _ still =>
      exact back rfl (.inserting s' _ m [] _ still ((headNo_more before n d _ (-1)).trans start))

theorem scanNext_spec {s : HeapFileScan} {found : Bool} (good : Good name hdr first ⟨db,.scanning s found⟩) :
    ∃ result s' db', db.scanNext name s = .ok (result,s',db') ∧ Good name hdr first ⟨db',.scanning s' result.isOk⟩ := by
  obtain ⟨k,b,same,owned,here,engaged⟩ := good.there
  have owned' : k.opened.Owned := owned
  cases engaged with
  | scanning _ c recCnt _ scanning start _ =>
    obtain ⟨b',s',c',moves,finds⟩ := HeapFileScan.scanNext_spec owned' scanning
    have start' : headNo c'.heap (-1) = first := by rw [moves.heap]; exact start
    have back : ∀ {result}, HeapFileScan.scanNext b s = .ok (result,s',b') →
      (result.isOk = true → ∃ i, c'.next = i + 1) →
        ∃ result s' db', db.scanNext name s = .ok (result,s',db') ∧
          Good name hdr first ⟨db',.scanning s' result.isOk⟩ := by
      intro result ran passed
      refine ⟨result,s',db.setPool name b',?_,
        good.setPool same owned (.scanning s' c' recCnt _ moves.scanning start' passed) db⟩
      have at_pool : (db.setPool name b).scanNext name s = .ok (result,s',db.setPool name b') := Db.scanNext_at ran
      rwa [Db.setPool_self here] at at_pool
    generalize HeapFileScan.scanNext b s = result at finds back
    cases finds with
    | record _ _ _ _ _ current =>
      obtain ⟨i,_,next,_⟩ := current
      exact back rfl fun _ => ⟨i,next⟩
    | eof => exact back rfl fun none => by cases none

-- After a scanNext that returned OK the slot has the record, or has lost it to an earlier call.
theorem deleteRecord_spec {s : HeapFileScan} (good : Good name hdr first ⟨db,.scanning s true⟩) :
    ∃ status s' db', db.deleteRecord name s = .ok (status,s',db') ∧ Good name hdr first ⟨db',.scanning s' true⟩ := by
  obtain ⟨k,b,same,owned,here,engaged⟩ := good.there
  cases engaged with
  | scanning _ c recCnt _ scanning start passed =>
    obtain ⟨i,next⟩ := passed rfl
    have back : ∀ {status s' b' c' recCnt'}, HeapFileScan.deleteRecord b s = .ok (status,s',b') →
        HeapFileScan.Scanning k.opened recCnt' b' s' c' → headNo c'.heap (-1) = first → c'.next = i + 1 →
        ∃ status s' db', db.deleteRecord name s = .ok (status,s',db') ∧
          Good name hdr first ⟨db',.scanning s' true⟩ := by
      intro status s' b' c' recCnt' ran scanning' start' next'
      refine ⟨status,s',db.setPool name b',?_,
        good.setPool same owned (.scanning s' c' recCnt' true scanning' start' fun _ => ⟨i,next'⟩) db⟩
      have at_pool : (db.setPool name b).deleteRecord name s = .ok (status,s',db.setPool name b') :=
        Db.deleteRecord_at ran
      rwa [Db.setPool_self here] at at_pool
    cases there : lookup c.slots i with
    | none =>
      obtain ⟨b',s',deleted,scanning',_⟩ := HeapFileScan.deleteRecord_dead scanning next there
      exact back deleted scanning' start next
    | some bytes =>
      have at_slot : s.curRec.slotNo = i := by
        have slot := scanning.slot
        omega
      obtain ⟨b',deleted,scanning'⟩ := HeapFileScan.deleteRecord_at scanning at_slot there
      exact back deleted scanning' ((headNo_set c.before c.after c.pageNo c.slots _ (-1)).trans start) next

theorem close_spec {s : InsertFileScan} (good : Good name hdr first ⟨db,.inserting s⟩) :
    ∃ db', db.deleteInsertFileScan name s = .ok db' ∧ Good name hdr first ⟨db',.none⟩ := by
  obtain ⟨k,b,same,owned,here,engaged⟩ := good.there
  cases engaged with
  | inserting _ before n d recCnt inserting start =>
    obtain ⟨kept,view⟩ := InsertFileScan.destroy_spec owned inserting
    refine ⟨db.setPool name (s.destroy b),?_,
      good.setPool same owned (.idle _ recCnt kept (by rw [view]; exact inserting.stored) start) db⟩
    have at_pool : (db.setPool name b).deleteInsertFileScan name s = .ok (db.setPool name (s.destroy b)) :=
      Db.deleteInsertFileScan_at s
    rwa [Db.setPool_self here] at at_pool

theorem closeScan_spec {s : HeapFileScan} {found : Bool} (good : Good name hdr first ⟨db,.scanning s found⟩) :
    ∃ db', db.deleteHeapFileScan name s = .ok db' ∧ Good name hdr first ⟨db',.none⟩ := by
  obtain ⟨k,b,same,owned,here,engaged⟩ := good.there
  cases engaged with
  | scanning _ c recCnt _ scanning start _ =>
    obtain ⟨kept,view⟩ := HeapFileScan.destroy_spec owned scanning
    refine ⟨db.setPool name (s.destroy b),?_,
      good.setPool same owned (.idle _ recCnt kept (by rw [view]; exact scanning.stored) start) db⟩
    have at_pool : (db.setPool name b).deleteHeapFileScan name s = .ok (db.setPool name (s.destroy b)) :=
      Db.deleteHeapFileScan_at s
    rwa [Db.setPool_self here] at at_pool

theorem createHeapFile_spec (good : Good name hdr first ⟨db,o⟩) :
    ∃ db', db.createHeapFile name = .ok (.fileExists,db') ∧ Good name hdr first ⟨db',o⟩ := by
  obtain ⟨k,b,same,owned,found,engaged⟩ := good.there
  have owned' : k.opened.Owned := owned
  refine ⟨db.setPool name b.openFile.2,?_,good.setPool (k:=k.opened) same owned' engaged.opened db⟩
  rw [Db.createHeapFile,Db.openFile_found good.named found]
  rfl

theorem openInsert_spec (good : Good name hdr first ⟨db,.none⟩) :
    ∃ s db', db.newInsertFileScan name = .ok (.ok,s,db') ∧ Good name hdr first ⟨db',.inserting s⟩ := by
  obtain ⟨k,b,same,owned,found,engaged⟩ := good.there
  cases engaged with
  | idle heap recCnt kept stored start =>
    obtain ⟨b',s,before,n,d,made,rfl,inserting⟩ := Db.newInsertFileScan_spec ⟨good.named,owned,b,found,kept,stored⟩
    exact ⟨s,db.setPool name b',made,good.setPool same owned (.inserting s before n d recCnt inserting start) db⟩

theorem openScan_spec (good : Good name hdr first ⟨db,.none⟩) (offset length : Int) (type : Option Datatype)
    (filter : Option (List UInt8)) (op : Operator) :
    ∃ s db', db.newHeapFileScan name = .ok (.ok,s,db') ∧
      Good name hdr first ⟨db',.scanning (s.startScan offset length type filter op).2 false⟩ := by
  obtain ⟨k,b,same,owned,found,engaged⟩ := good.there
  cases engaged with
  | idle heap recCnt kept stored start =>
    obtain ⟨b',s,c,made,scanning,rfl,_⟩ := Db.newHeapFileScan_spec ⟨good.named,owned,b,found,kept,stored⟩
    have filtered := scanning.filtered (s.startScan offset length type filter op).2.filter
    rw [← HeapFileScan.startScan_keeps] at filtered
    exact ⟨s,db.setPool name b',made,good.setPool same owned
      (.scanning _ c recCnt false filtered start fun none => by cases none) db⟩

theorem step_spec {call : FileCall} (good : Good name hdr first x)
    (storable : ∀ bytes, call = .insertRecord bytes → InsertFileScan.Storable bytes) :
    ∃ x', step name x call = .ok x' ∧ Good name hdr first x' := by
  obtain ⟨db,object⟩ := x
  cases call with
  | createHeapFile =>
    obtain ⟨db',created,good'⟩ := createHeapFile_spec good
    exact ⟨_,by rw [step,created]; rfl,good'⟩
  | openInsert =>
    cases object with
    | none =>
      obtain ⟨s,db',made,good'⟩ := openInsert_spec good
      exact ⟨_,by simp only [step,made]; rfl,good'⟩
    | inserting s => exact ⟨_,rfl,good⟩
    | scanning s found => exact ⟨_,rfl,good⟩
  | openScan offset length type filter op =>
    cases object with
    | none =>
      obtain ⟨s,db',made,good'⟩ := openScan_spec good offset length type filter op
      exact ⟨_,by simp only [step,made]; rfl,good'⟩
    | inserting s => exact ⟨_,rfl,good⟩
    | scanning s found => exact ⟨_,rfl,good⟩
  | insertRecord bytes =>
    cases object with
    | none => exact ⟨_,rfl,good⟩
    | inserting s =>
      obtain ⟨result,s',db',inserted,good'⟩ := insertRecord_spec (storable bytes rfl) good
      exact ⟨_,by simp only [step,inserted]; rfl,good'⟩
    | scanning s found => exact ⟨_,rfl,good⟩
  | scanNext =>
    cases object with
    | none => exact ⟨_,rfl,good⟩
    | inserting s => exact ⟨_,rfl,good⟩
    | scanning s found =>
      obtain ⟨result,s',db',scanned,good'⟩ := scanNext_spec good
      exact ⟨_,by simp only [step,scanned]; rfl,good'⟩
  | deleteRecord =>
    cases object with
    | none => exact ⟨_,rfl,good⟩
    | inserting s => exact ⟨_,rfl,good⟩
    | scanning s found =>
      cases found with
      | false => exact ⟨_,rfl,good⟩
      | true =>
        obtain ⟨status,s',db',deleted,good'⟩ := deleteRecord_spec good
        exact ⟨_,by simp only [step,deleted]; rfl,good'⟩
  | close =>
    cases object with
    | none => exact ⟨_,rfl,good⟩
    | inserting s =>
      obtain ⟨db',closed,good'⟩ := close_spec good
      exact ⟨_,by simp only [step,closed]; rfl,good'⟩
    | scanning s found =>
      obtain ⟨db',closed,good'⟩ := closeScan_spec good
      exact ⟨_,by simp only [step,closed]; rfl,good'⟩

theorem run_spec {calls : List FileCall} (good : Good name hdr first x)
    (storable : ∀ bytes, .insertRecord bytes ∈ calls → InsertFileScan.Storable bytes) :
    ∃ x', run name x calls = .ok x' ∧ Good name hdr first x' := by
  induction calls generalizing x with
  | nil => exact ⟨x,rfl,good⟩
  | cons call rest ih =>
    obtain ⟨x1,stepped,good1⟩ := step_spec good fun bytes here => storable bytes (here ▸ List.mem_cons_self ..)
    obtain ⟨x2,done,good2⟩ := ih good1 fun bytes member => storable bytes (List.mem_cons_of_mem _ member)
    exact ⟨x2,by rw [run,stepped]; exact done,good2⟩

-- At every point of the life of a heap file its pages are one chain from the same first page to
-- the page that the header page has as the last.
theorem pages_stay_linked (name : Name) (db : Db) (named : name ≠ []) (missing : db.files name = none) :
    ∃ hdr first, ∀ calls : List FileCall, (∀ bytes, .insertRecord bytes ∈ calls → InsertFileScan.Storable bytes) →
      ∃ x b, lifetime name db calls = .ok x ∧ x.db.files name = some b ∧ Linked b.view hdr first := by
  obtain ⟨b0,hdr,n,created,_,owned,b,found,kept,stored⟩ := Db.createHeapFile_missing named missing
  refine ⟨hdr,n,fun calls storable => ?_⟩
  have start : Good name hdr n ⟨db.setPool name b0,.none⟩ := ⟨named,_,b,rfl,owned,found,.idle _ _ kept stored rfl⟩
  obtain ⟨x,ran,good⟩ := run_spec start storable
  obtain ⟨k,b',same,_,there,engaged⟩ := good.there
  refine ⟨x,b',by rw [lifetime,created]; exact ran,there,?_⟩
  rw [← same]
  exact engaged.linked

theorem pages_stay_linked_sample :
    let calls := [.openInsert,.insertRecord [1],.insertRecord (List.replicate 996 2),.createHeapFile,.insertRecord
      (List.replicate 1005 3),
      .insertRecord (List.replicate 1010 4),.close,.openScan 0 0 (some .string) none
        .eq,.deleteRecord,.scanNext,.deleteRecord,.deleteRecord]
    ∃ hdr first x b, lifetime [114] ⟨fun _ => none,fun _ _ => zero 1024,⟨HeapFile.fresh 0 0,none,0,nullRid⟩,.untouched⟩
      calls = .ok x ∧
      x.db.files [114] = some b ∧ Linked b.view hdr first := by
  intro calls
  obtain ⟨hdr,first,linked⟩ := pages_stay_linked [114] ⟨fun _ => none,fun _ _ =>
    zero 1024,⟨HeapFile.fresh 0 0,none,0,nullRid⟩,.untouched⟩
    (List.cons_ne_nil _ _) rfl
  have storable : ∀ bytes, .insertRecord bytes ∈ calls → InsertFileScan.Storable bytes := by
    intro bytes member
    simp only [calls,List.mem_cons,FileCall.insertRecord.injEq,reduceCtorEq,List.not_mem_nil,or_false,
      false_or] at member
    rcases member with rfl | rfl | rfl | rfl
    · exact ⟨by decide,by decide⟩
    all_goals exact InsertFileScan.storable_replicate _ (by omega) (by omega)
  obtain ⟨x,b,lived,there,chain⟩ := linked calls storable
  exact ⟨hdr,first,x,b,lived,there,chain⟩

end OneClient
end Minirel
