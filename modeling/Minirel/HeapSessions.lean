import Minirel.ScanRuns

namespace Minirel
open ByteMemory SlotDirectory Page Heap

-- A client that reads records by RID through one HeapFile object.
def HeapFile.getRecords : List RID → Pool → HeapFile → Except Abort (List (Except Status Record) × HeapFile × Pool)
  | [],b,h => return ([],h,b)
  | rid::rest,b,h => do
    let (result,h,b) ← HeapFile.getRecord b h rid
    let (results,h,b) ← getRecords rest b h
    return (result::results,h,b)

def HeapFile.session (b : Pool) (h : HeapFile) (rids : List RID) :
    Except Abort (List (Except Status Record) × Pool) := do
  let (_,b) := b.openFile
  let (_,h,b) ← HeapFile.construct b h
  let (results,h,b) ← HeapFile.getRecords rids b h
  return (results,h.destroy b)

inductive ScanCall where
  | scanNext | deleteRecord
  deriving DecidableEq,Repr

-- deleteRecord is called only while the last scanNext was a success; `ready` is the RID that
-- scanNext returned. The client strikes out what deleteRecord reports as deleted.
def HeapFileScan.calls : List ScanCall → Pool → HeapFileScan → Option RID → List Entry →
    Except Abort (List Entry × HeapFileScan × Pool)
  | [],b,s,_,ledger => return (ledger,s,b)
  | .scanNext::rest,b,s,_,ledger => do
    let (result,s,b) ← HeapFileScan.scanNext b s
    calls rest b s result.toOption ledger
  | .deleteRecord::rest,b,s,some rid,ledger => do
    let (status,s,b) ← HeapFileScan.deleteRecord b s
    calls rest b s (some rid) (if status = .ok then ledger.filter fun e => e.1 ≠ rid else ledger)
  | .deleteRecord::rest,b,s,none,ledger => calls rest b s none ledger

-- One opening of the file, from constructor to destructor.
inductive Session where
  | insert (recs : List (List UInt8))
  | scan (offset length : Int) (type : Option Datatype) (filter : Option (List UInt8)) (op : Operator)
      (calls : List ScanCall)

namespace Session

-- `raw` is what the members of an object hold before its constructor has run.
def run (raw : HeapFileScan) (b : Pool) (ledger : List Entry) : Session → Except Abort (List Entry × Pool)
  | .insert recs => InsertFileScan.session b ⟨raw.toHeapFile⟩ recs ledger
  | .scan offset length type filter op calls => do
    let (_,b) := b.openFile
    let (_,s,b) ← HeapFileScan.construct b raw
    let (_,s) := s.startScan offset length type filter op
    let (ledger,s,b) ← HeapFileScan.calls calls b s none ledger
    return (ledger,HeapFileScan.destroy b s)

def Storable : Session → Prop
  | .insert recs => ∀ bytes ∈ recs, InsertFileScan.Storable bytes
  | .scan .. => True

def runAll (raw : HeapFileScan) : List Session → Pool → List Entry → Except Abort (List Entry × Pool)
  | [],b,ledger => return (ledger,b)
  | session::rest,b,ledger => do
    let (ledger,b) ← session.run raw b ledger
    runAll raw rest b ledger

-- The life of a heap file from createHeapFile on, and the list its clients have kept of it.
def lifetime (stale : Int → Page) (name : Name) (raw : HeapFileScan) (sessions : List Session) :
    Except Abort (List Entry × Pool) := do
  let (_,b) ← (Pool.created stale).createHeapFile name
  runAll raw sessions b []

end Session

variable {k : Pool.Books} {recCnt : Int} {b : Pool} {heap : Heap} {ledger : List Entry}

namespace HeapFileScan

variable {s : HeapFileScan} {c : Cursor}

-- The record that scanNext returned is still there, or has been deleted since.
def Ready (c : Cursor) (s : HeapFileScan) (rid : RID) : Prop :=
  (∃ bytes, c.Current (rid,bytes) ∧ s.curRec = rid) ∨ ∃ i, c.next = i + 1 ∧ lookup c.slots i = none

theorem calls_spec (list : List ScanCall) (ready : Option RID) (owned : k.Owned) (scanning : Scanning k recCnt b s c)
    (same : (records c.heap).Perm ledger) (standing : ∀ rid, ready = some rid → Ready c s rid) :
    ∃ recCnt' b' s' c' ledger', calls list b s ready ledger = .ok (ledger',s',b') ∧ Scanning k recCnt' b' s' c' ∧
      (records c'.heap).Perm ledger' := by
  induction list generalizing recCnt b s c ready ledger with
  | nil => exact ⟨recCnt,b,s,c,ledger,by rw [calls]; rfl,scanning,same⟩
  | cons call rest ih =>
    cases call with
    | scanNext =>
      obtain ⟨b1,s1,c1,moves,finds⟩ := scanNext_spec owned scanning
      have same' : (records c1.heap).Perm ledger := by rw [moves.heap]; exact same
      rw [calls]
      generalize scanNext b s = result at finds ⊢
      cases finds with
      | record skipped bytes _ _ _ current =>
        refine ih _ moves.scanning same' fun rid now => ?_
        cases now
        exact .inl ⟨bytes,current,rfl⟩
      | eof _ _ => exact ih _ moves.scanning same' fun rid now => by cases now
    | deleteRecord =>
      cases ready with
      | none => rw [calls]; exact ih _ scanning same fun rid now => by cases now
      | some rid =>
        rw [calls]
        rcases standing rid rfl with ⟨bytes,current,at_rid⟩ | ⟨i,at_slot,gone⟩
        · obtain ⟨b1,s1,c1,deleted,scanning1,_,_,_,left,i,at_slot,gone⟩ := deleteRecord_live scanning current at_rid
          rw [deleted]
          refine ih _ scanning1 ?_ fun _ _ => .inr ⟨i,at_slot,gone⟩
          rw [left,if_pos rfl]
          exact same.filter _
        · obtain ⟨b1,s1,deleted,scanning1,_⟩ := deleteRecord_dead scanning at_slot gone
          rw [deleted]
          exact ih _ scanning1 same fun _ _ => .inr ⟨i,at_slot,gone⟩

end HeapFileScan

namespace HeapFile

variable {h : HeapFile} {n : Int}

structure Reading (k : Pool.Books) (recCnt : Int) (heap : Heap) (b : Pool) (h : HeapFile) (n : Int) : Prop where
  kept : b.Keeps ((k.hold k.first h.hdrDirtyFlag).hold n h.curDirtyFlag)
  stored : Stored b.view k.first heap recCnt
  headerPageNo : h.headerPageNo = k.first
  curPage : h.curPage = some n
  curPageNo : h.curPageNo = n

theorem getRecord_spec {e : Entry} (owned : k.Owned) (reading : Reading k recCnt heap b h n) (live : e ∈ records heap) :
    ∃ b' h' n', getRecord b h e.1 = .ok (.ok (.of e.2),h',b') ∧ Reading k recCnt heap b' h' n' := by
  obtain ⟨rid,bytes⟩ := e
  obtain ⟨⟨m,d⟩,inside,member⟩ := List.mem_flatMap.mp live
  obtain ⟨i,rfl,found⟩ := mem_pageRecords.mp member
  obtain ⟨before,after,split⟩ := List.append_of_mem inside
  have stored := reading.stored
  rw [split] at stored
  obtain ⟨p,_,seen,held,_⟩ := stored.page
  have got : p.getRecord ⟨m,i⟩ = .ok (.of bytes) := held.getRecord_live found (stored.nonempty found)
  have pinned : ¬ h.curPage = none := by rw [reading.curPage]; exact Option.some_ne_none _
  dsimp only
  rw [getRecord,if_neg pinned,reading.curPageNo,reading.curPage]
  by_cases here : m = n
  · subst here
    rw [if_pos rfl,reading.kept.deref seen,ok_bind,got]
    exact ⟨b,{h with curPage := some m, curPageNo := m, curRec := ⟨m,i⟩},m,rfl,reading.kept,reading.stored,
      reading.headerPageNo,rfl,rfl⟩
  · rw [if_neg here]
    obtain ⟨b1,unpinned,kept1,view1⟩ := reading.kept.unPinPage (owned.hold _ _) h.curDirtyFlag id
    have seen1 : b1.view m = some p := by rw [view1]; exact seen
    obtain ⟨b2,read,kept2,view2⟩ := kept1.readPage seen1
    have seen2 : b2.view m = some p := by rw [view2]; exact seen1
    have deref := kept2.deref seen2
    refine ⟨b2,{h with curPage := some m, curPageNo := m, curDirtyFlag := false, curRec := ⟨m,i⟩},m,?_,kept2,
      by rw [view2,view1]; exact reading.stored,reading.headerPageNo,rfl,rfl⟩
    simp only [unpinned,readRecord,read,deref,ok_bind,got]
    rfl

theorem getRecords_spec {entries : List Entry} (owned : k.Owned) (reading : Reading k recCnt heap b h n)
    (live : ∀ e ∈ entries, e ∈ records heap) :
    ∃ b' h' n', getRecords (entries.map Prod.fst) b h = .ok (entries.map fun e => .ok (.of e.2),h',b') ∧
      Reading k recCnt heap b' h' n' := by
  induction entries generalizing b h n with
  | nil => exact ⟨b,h,n,rfl,reading⟩
  | cons e rest ih =>
    obtain ⟨b1,h1,n1,got,reading1⟩ := getRecord_spec owned reading (live e (List.mem_cons_self ..))
    obtain ⟨b2,h2,n2,later,reading2⟩ := ih reading1 fun e member => live e (List.mem_cons_of_mem _ member)
    refine ⟨b2,h2,n2,?_,reading2⟩
    rw [List.map_cons,getRecords,got,ok_bind]
    dsimp only
    rw [later]
    rfl

theorem session_spec {entries : List Entry} (owned : k.Owned) (kept : b.Keeps k)
    (stored : Stored b.view k.first heap recCnt)
    (h : HeapFile) (live : ∀ e ∈ entries, e ∈ records heap) :
    ∃ b', session b h (entries.map Prod.fst) = .ok (entries.map fun e => .ok (.of e.2),b') ∧ b'.Keeps k ∧
      Stored b'.view k.first heap recCnt := by
  obtain ⟨b1,opened,kept1,view1⟩ := kept.openFile
  have owned' : k.opened.Owned := owned
  obtain ⟨n,d,rest,b2,rfl,constructed,kept2,view2⟩ := construct_spec kept1 (by rw [view1]; exact stored) h
  have reading : Reading k.opened recCnt ((n,d)::rest) b2 (fresh k.opened.first n) n :=
    ⟨kept2,by rw [view2,view1]; exact stored,rfl,rfl,rfl⟩
  obtain ⟨b3,h3,n3,done,reading3⟩ := getRecords_spec owned' reading live
  obtain ⟨kept4,view4⟩ := destroy_pinned owned reading3.headerPageNo reading3.curPage reading3.curPageNo reading3.kept
  refine ⟨h3.destroy b3,?_,kept4,by rw [view4]; exact reading3.stored⟩
  simp only [session,opened,constructed,ok_bind,done]
  rfl

end HeapFile

namespace Session

theorem run_spec {session : Session} (owned : k.Owned) (kept : b.Keeps k) (stored : Stored b.view k.first heap recCnt)
    (raw : HeapFileScan) (storable : session.Storable) (same : (records heap).Perm ledger) :
    ∃ recCnt' heap' b' ledger', session.run raw b ledger = .ok (ledger',b') ∧ b'.Keeps k ∧
      Stored b'.view k.first heap' recCnt' ∧
      (records heap').Perm ledger' := by
  cases session with
  | insert recs => exact InsertFileScan.session_spec owned kept stored _ storable same
  | scan offset length type filter op calls =>
    obtain ⟨b1,opened,kept1,view1⟩ := kept.openFile
    have owned' : k.opened.Owned := owned
    obtain ⟨b2,s2,c,constructed,scanning,heap_eq,_,_,_⟩ :=
      HeapFileScan.construct_spec kept1 (by rw [view1]; exact stored) raw
    have scanning3 := scanning.filtered (s2.startScan offset length type filter op).2.filter
    rw [← HeapFileScan.startScan_keeps] at scanning3
    have same3 : (records c.heap).Perm ledger := by rw [heap_eq]; exact same
    obtain ⟨recCnt',b4,s4,c4,ledger',done,scanning4,same'⟩ := HeapFileScan.calls_spec calls none owned' scanning3
      same3 fun rid now => by cases now
    obtain ⟨kept5,view5⟩ := HeapFileScan.destroy_spec owned scanning4
    refine ⟨recCnt',c4.heap,HeapFileScan.destroy b4 s4,ledger',?_,kept5,by rw [view5]; exact scanning4.stored,same'⟩
    simp only [run,opened,constructed,ok_bind,done]
    rfl

theorem runAll_spec {sessions : List Session} (owned : k.Owned) (kept : b.Keeps k)
    (stored : Stored b.view k.first heap recCnt)
    (raw : HeapFileScan) (storable : ∀ session ∈ sessions, session.Storable) (same : (records heap).Perm ledger) :
    ∃ recCnt' heap' b' ledger', runAll raw sessions b ledger = .ok (ledger',b') ∧ b'.Keeps k ∧
      Stored b'.view k.first heap' recCnt' ∧
      (records heap').Perm ledger' := by
  induction sessions generalizing b heap recCnt ledger with
  | nil => exact ⟨recCnt,heap,b,ledger,rfl,kept,stored,same⟩
  | cons session rest ih =>
    obtain ⟨recCnt1,heap1,b1,ledger1,ran,kept1,stored1,same1⟩ :=
      run_spec owned kept stored raw (storable session (List.mem_cons_self ..)) same
    rw [runAll,ran]
    exact ih kept1 stored1 (fun later member => storable later (List.mem_cons_of_mem _ member)) same1

-- After any sessions the clients' list, a fresh scan of the file and reads by RID all agree.
theorem heap_file_is_finite_map (stale : Int → Page) (name : Name) (raw : HeapFileScan) (sessions : List Session)
    (storable : ∀ session ∈ sessions, session.Storable) :
    ∃ ledger b, lifetime stale name raw sessions = .ok (ledger,b) ∧ (ledger.map Prod.fst).Nodup ∧
      (∀ n, ∃ found seen b', found.Perm ledger ∧ HeapFileScan.session b raw 0 0 (some .string) none .eq
        (fun _ _ => false) n = .ok (seen,b') ∧
        seen.length = n ∧ HeapFileScan.Visits (fun _ _ => false) found seen) ∧
      ∀ entries : List Entry, (∀ e ∈ entries, e ∈ ledger) → ∃ b',
        HeapFile.session b raw.toHeapFile (entries.map Prod.fst) = .ok (entries.map fun e => .ok (.of e.2),b') := by
  obtain ⟨hdr,n,b0,created,kept0,stored0⟩ := createHeapFile_spec stale name
  have owned : ({Pool.Books.unused with first := hdr} : Pool.Books).Owned := fun _ marked => False.elim marked
  have empty : (records [(n,[])]).Perm ([] : List Entry) := by rfl
  obtain ⟨recCnt,heap,b,ledger,ran,kept,stored,same⟩ := runAll_spec owned kept0 stored0 raw storable empty
  refine ⟨ledger,b,by rw [lifetime,created]; exact ran,?_,fun n => ?_,fun entries live => ?_⟩
  · exact (same.map Prod.fst).nodup_iff.mp (records_keys_nodup stored.nodup)
  · obtain ⟨seen,b',done,length_seen,visits⟩ := HeapFileScan.full_scan_spec owned kept stored raw n
    exact ⟨records heap,seen,b',same,done,length_seen,visits⟩
  · obtain ⟨b',read,_⟩ := HeapFile.session_spec owned kept stored raw.toHeapFile fun e member =>
      same.mem_iff.mpr (live e member)
    exact ⟨b',read⟩

theorem heap_file_is_finite_map_reopened :
    let sessions := [.insert [[1],[2,2]],.scan 0 1 (some .string) (some [2]) .eq [.scanNext,.deleteRecord,.scanNext],
      .insert [[3]]]
    ∃ ledger b, lifetime (fun _ => zero 1024) [114] ⟨HeapFile.fresh 0 0,none,0,nullRid⟩ sessions = .ok (ledger,b) ∧
      (ledger.map Prod.fst).Nodup := by
  intro sessions
  have storable : ∀ session ∈ sessions, session.Storable := by
    intro session member
    simp only [sessions,List.mem_cons,List.not_mem_nil,or_false] at member
    rcases member with rfl | rfl | rfl
    · intro bytes inside
      simp only [List.mem_cons,List.not_mem_nil,or_false] at inside
      rcases inside with rfl | rfl <;> exact ⟨by decide,by decide⟩
    · trivial
    · intro bytes inside
      simp only [List.mem_cons,List.not_mem_nil,or_false] at inside
      subst inside
      exact ⟨by decide,by decide⟩
  obtain ⟨ledger,b,lived,nodup,_⟩ :=
    heap_file_is_finite_map (fun _ => zero 1024) [114] ⟨HeapFile.fresh 0 0,none,0,nullRid⟩ sessions storable
  exact ⟨ledger,b,lived,nodup⟩

end Session
end Minirel
