import Minirel.Stage4HeapFile
import Minirel.HeapWriters

namespace Minirel.Stage4
open ByteMemory SlotDirectory Page Heap

theorem init_setNextPage (p : Page) (pageNo : Int) : (p.init pageNo).setNextPage (-1) = p.init pageNo := by
  apply block_ext
  intro a low high
  simp only [init,setNextPage,setSlotCnt,setCurPage,setFreePtr,setFreeSpace,setWord,get_store,length_encode]
  by_cases here : 1016 ≤ a ∧ a < 1020
  · simp (disch := omega) only [if_pos,if_neg]
  · simp (disch := omega) only [if_neg]

variable {b b' : Pool} {k : Pool.Books} {recCnt : Int}

namespace InsertFileScan

variable {s s' : InsertFileScan}

-- With the flag set the page in front of the new one is unpinned as stage6 does it.
theorem linkNewPage_same (dirty : s.curDirtyFlag = true)
    (linked : Minirel.InsertFileScan.linkNewPage b s = .ok (.ok (),s',b')) : linkNewPage b s = .ok (.ok (),s',b') := by
  unfold Minirel.InsertFileScan.linkNewPage at linked
  unfold linkNewPage
  simp only [init_setNextPage] at linked
  simp only [dirty]
  generalize b.allocPage = allocated at linked ⊢
  obtain ⟨newPageNo | newPageNo,b1⟩ := allocated
  · cases linked
  dsimp only at linked ⊢
  generalize b1.deref (some newPageNo) = newPage at linked ⊢
  cases newPage with
  | error a => cases linked
  | ok newPage =>
  simp only [ok_bind] at linked ⊢
  generalize (b1.assign (some newPageNo) (newPage.init newPageNo)) = b2 at linked ⊢
  generalize b2.deref s.headerPage = header at linked ⊢
  cases header with
  | error a => cases linked
  | ok header =>
  simp only [ok_bind] at linked ⊢
  generalize b2.assign _ _ = b3 at linked ⊢
  generalize b3.deref s.curPage = page at linked ⊢
  cases page with
  | error a => cases linked
  | ok page =>
  simp only [ok_bind] at linked ⊢
  generalize Pool.unPinPage _ _ _ = unpinned at linked ⊢
  split at linked
  · simp only [dirty] at linked
    exact linked
  · cases linked

theorem counted_same (b : Pool) (s : InsertFileScan) (rid : RID) :
    counted b s rid = (Minirel.InsertFileScan.counted b s).map fun r =>
      (.ok rid,⟨{r.1.toHeapFile with curRec := rid}⟩,r.2) := by
  unfold counted Minirel.InsertFileScan.counted
  cases b.deref s.headerPage <;> rfl

open Minirel.InsertFileScan (Standing Inserting)

variable {heap before after : Heap} {n : Int} {d : Slots} {bytes : List UInt8} {ledger : List Entry}

-- What an insert leaves behind; other holders may find a page pinned once more than before.
def Leaves (k : Pool.Books) (ledger : List Entry) (s : InsertFileScan) (b : Pool) : Prop :=
  ∃ (k' : Pool.Books) (recCnt : Int) (heap : Heap) (n : Int), k'.Owned ∧ k'.first = k.first ∧
    Standing k'.opened recCnt b s heap n ∧
    (records heap).Perm ledger

-- The members that insertRecord changes besides the flags play no part.
theorem Standing.set (standing : Standing k recCnt b s heap n) (rid : RID) :
    Standing k recCnt b ⟨{s.toHeapFile with curRec := rid}⟩ heap n :=
  ⟨standing.kept,standing.stored,standing.member,standing.headerPage,standing.headerPageNo,standing.curPage,
    standing.curPageNo⟩

theorem insertOnNewPage_spec (owned : k.Owned) (positive : bytes ≠ [])
    (inserting : Inserting k.opened recCnt b s before n d)
    (dirty : s.curDirtyFlag = true) (same : (records (before ++ [(n,d)])).Perm ledger) :
    ∃ result s' b', insertOnNewPage b s (.of bytes) = .ok (result,s',b') ∧
      Leaves k (Writers.noted ledger bytes result) s' b' := by
  have owned' : k.opened.Owned := owned
  rcases Minirel.InsertFileScan.linkNewPage_spec owned' inserting with failed | ⟨b1,s1,m,linked,now,flag,_⟩
  · refine ⟨.error .unixErr,s,b,by simp only [insertOnNewPage,linkNewPage,failed]; rfl,
      k,recCnt,_,n,owned,rfl,inserting.standing,same⟩
  have linked' := linkNewPage_same dirty linked
  obtain ⟨p,seen,_,held,next⟩ := now.page
  obtain ⟨b2,read,kept2,view2⟩ := now.kept.readPage seen
  have seen2 : b2.view m = some p := by rw [view2]; exact seen
  have deref := kept2.deref seen2
  have empty : (records ((before ++ [(n,d)]) ++ [(m,[])])).Perm ledger := by rw [records_linked]; exact same
  rcases lt_or_ge (spaceLeft []) (bytes.length + slotSize) with full | room
  · -- The record fits no page: the second pin stays.
    refine ⟨.error .noSpace,s1,b2,?_,k.hold m false,recCnt,_,m,owned.hold _ _,rfl,?_,empty⟩
    · simp only [insertOnNewPage,linked',ok_bind,now.curPageNo,read,now.curPage,deref,held.insert_full full]
      rfl
    · have kept : b2.Keeps ((((k.hold m false).opened).hold k.first s1.hdrDirtyFlag).hold m true) := by
        have moved : (k.hold m false).opened = k.opened.hold m false := rfl
        rw [moved,Pool.Books.hold_comm k.opened m k.first,Pool.Books.hold_comm (k.opened.hold k.first s1.hdrDirtyFlag)
          m m]
        exact kept2
      exact ⟨kept,by rw [view2]; exact now.stored,now.standing.member,now.headerPage,now.headerPageNo,now.curPage,now.curPageNo⟩
  · obtain ⟨q,inserted,held',next'⟩ := held.insert_room room
    obtain ⟨kept3,view3⟩ := kept2.assign (q.setNextPage (-1))
    obtain ⟨b4,unpinned,kept4,view4⟩ := kept3.unPinPage ((owned'.hold _ _).hold _ _) true fun _ => rfl
    have views : ∀ i, b4.view i = if i = m then some (q.setNextPage (-1)) else b1.view i := fun i => by
      rw [view4,view3,view2]
    obtain ⟨b5,counted5,standing⟩ := now.standing.counted_after kept4 views (held'.setNextPage (-1))
      (word_setWord (by omega) (by omega)) (full_put now.stored.full_page positive)
    refine ⟨.ok ⟨m,firstFree ([] : Slots)⟩,_,b5,?_,k,_,_,m,owned,rfl,Standing.set standing ⟨m,firstFree ([] : Slots)⟩,
      Writers.noted_perm ((records_put (before ++ [(n,d)]) m [] bytes).trans (empty.cons _))⟩
    simp only [insertOnNewPage,linked',ok_bind,now.curPageNo,read,now.curPage,deref,inserted,flag,dirty,
      unpinned,counted_same,counted5]
    rfl

-- The record fits on the page the scan stands on, or that page is the last one and will be
-- unpinned as dirty.
def settles (b : Pool) (s : InsertFileScan) (bytes : List UInt8) : Bool :=
  match b.deref s.curPage,b.deref s.headerPage with
  | .ok page,.ok header => decide (bytes.length + slotSize ≤ page.freeSpace) ||
      (decide (s.curPageNo = FileHdrPage.lastPage header) && s.curDirtyFlag)
  | _,_ => false

theorem insertRecord_spec (owned : k.Owned) (standing : Standing k.opened recCnt b s heap n)
    (positive : 1 ≤ bytes.length)
    (int : bytes.length < 2 ^ 31) (meets : dataSize < bytes.length ∨ settles b s bytes = true)
    (same : (records heap).Perm ledger) :
    ∃ result s' b', insertRecord b s (.of bytes) = .ok (result,s',b') ∧
      Leaves k (Writers.noted ledger bytes result) s' b' := by
  have owned' : k.opened.Owned := owned
  have full : bytes ≠ [] := List.ne_nil_of_length_pos positive
  have size : (Record.of bytes).length % 2 ^ 32 = bytes.length := by
    dsimp only [Record.of]
    omega
  by_cases long : dataSize < bytes.length
  · refine ⟨.error .invalidRecLen,s,b,?_,k,recCnt,heap,n,owned,rfl,standing,same⟩
    rw [insertRecord,size,if_pos (Int.ofNat_lt.mpr long)]
    rfl
  obtain ⟨⟨n',d⟩,inside,here⟩ := List.mem_map.mp standing.member
  obtain ⟨before,after,rfl⟩ := List.append_of_mem inside
  dsimp only at here
  subst here
  obtain ⟨page,_,read,held,next⟩ := standing.page
  obtain ⟨header,at_header,_⟩ := standing.stored.header
  have read_header : b.deref s.headerPage = .ok header := by
    rw [standing.headerPage]
    have kept := standing.kept
    rw [Pool.Books.hold_comm] at kept
    exact kept.deref at_header
  have meets := meets.resolve_left long
  rw [settles,read,read_header] at meets
  simp only [Bool.or_eq_true,Bool.and_eq_true,decide_eq_true_eq,standing.curPageNo] at meets
  rw [insertRecord,size,if_neg (by omega),if_neg (by rw [standing.curPage]; exact Option.some_ne_none _),
    insertOnCurrentPage,read,
    ok_bind]
  rcases lt_or_ge (spaceLeft d) (bytes.length + slotSize) with no_room | room
  · rw [held.freeSpace_eq] at meets
    obtain ⟨at_end,dirty⟩ := meets.resolve_left (Int.not_le.mpr no_room)
    have only : after = [] := standing.stored.at_end at_header at_end
    subst only
    rw [held.insert_full no_room]
    exact insertOnNewPage_spec owned full standing.inserting dirty same
  · obtain ⟨q,inserted,held',next'⟩ := held.insert_room room
    obtain ⟨b',counted,standing'⟩ := standing.counted held' (next'.trans next) (full_put standing.stored.full_page full)
    refine ⟨.ok ⟨n',firstFree d⟩,_,b',?_,k,_,_,n',owned,rfl,Standing.set standing' ⟨n',firstFree d⟩,
      Writers.noted_perm ((records_put_at before after n' d bytes).trans (same.cons _))⟩
    rw [inserted]
    dsimp only
    rw [counted_same,counted]
    rfl

end InsertFileScan

theorem HeapFile.construct_spec {heap : Heap} (kept : b.Keeps k) (stored : Stored b.view k.first heap recCnt)
    (h : HeapFile) :
    ∃ n d rest b', heap = (n,d)::rest ∧ HeapFile.construct b h = .ok (.ok,Minirel.HeapFile.fresh k.first n,b') ∧
      b'.Keeps ((k.hold k.first false).hold n false) ∧ b'.view = b.view := by
  obtain ⟨n,d,rest,header,b1,b2,split,read1,header1,first,read2,kept2,view2⟩ := Minirel.HeapFile.opening kept stored
  refine ⟨n,d,rest,b2,split,?_,kept2,view2⟩
  simp only [construct,kept.getFirstPage,read1,header1,ok_bind,first,read2,Minirel.HeapFile.fresh]
  rfl

namespace HeapFileScan

open Minirel.HeapFileScan (Scanning Moves Reached Visits)

variable {s s' : HeapFileScan}

-- The two versions differ only in what a failing unPinPage or readPage leaves behind, and after
-- that stage6 has no current page.
theorem nextPages_same {turns : Nat} {result : Except Status Unit}
    (done : Minirel.HeapFileScan.nextPages turns b s = .ok (result,s',b')) (pinned : s'.curPage ≠ none) :
    nextPages turns b s = .ok (result,s',b') := by
  induction turns generalizing b s with
  | zero => cases done
  | succ turns ih =>
    unfold Minirel.HeapFileScan.nextPages at done
    unfold nextPages
    generalize b.deref s.curPage = page at done ⊢
    cases page with
    | error a => cases done
    | ok page =>
    simp only [ok_bind] at done ⊢
    by_cases last : page.getNextPage = -1
    · rw [if_pos last] at done ⊢
      exact done
    rw [if_neg last] at done ⊢
    generalize b.unPinPage s.curPageNo s.curDirtyFlag = unpinned at done ⊢
    obtain ⟨status,b⟩ := unpinned
    cases status
    case ok =>
      dsimp only at done ⊢
      generalize Pool.readPage _ _ = read at done ⊢
      obtain ⟨status,b⟩ := read
      cases status
      case ok =>
        dsimp only at done ⊢
        generalize Pool.deref _ _ = page at done ⊢
        cases page with
        | error a => cases done
        | ok page =>
          simp only [ok_bind] at done ⊢
          generalize page.firstRecord = first at done ⊢
          cases first with
          | ok rid => exact done
          | error status => exact ih done
      all_goals
        cases done
        exact absurd rfl pinned
    all_goals
      cases done
      exact absurd rfl pinned

theorem advance_same {result : Except Status Unit} (done : Minirel.HeapFileScan.advance b s = .ok (result,s',b'))
    (pinned : s'.curPage ≠ none) : advance b s = .ok (result,s',b') := by
  unfold Minirel.HeapFileScan.advance at done
  unfold advance
  generalize b.deref s.curPage = page at done ⊢
  cases page with
  | error a => cases done
  | ok page =>
    simp only [ok_bind] at done ⊢
    generalize page.nextRecord s.curRec = next at done ⊢
    cases next with
    | ok rid => exact done
    | error status => exact nextPages_same done pinned

theorem nextRecords_same {turns : Nat} {result : Except Status RID}
    (done : Minirel.HeapFileScan.nextRecords turns b s = .ok (result,s',b')) (pinned : s'.curPage ≠ none) :
    nextRecords turns b s = .ok (result,s',b') := by
  induction turns generalizing b s with
  | zero => cases done
  | succ turns ih =>
    unfold Minirel.HeapFileScan.nextRecords at done
    unfold nextRecords
    cases moved : Minirel.HeapFileScan.advance b s with
    | error a => rw [moved] at done; cases done
    | ok r =>
      obtain ⟨move,s1,b1⟩ := r
      rw [moved,ok_bind] at done
      cases move with
      | error status =>
        cases done
        rw [advance_same moved pinned]
        rfl
      | ok _ =>
        dsimp only at done
        cases read : b1.deref s1.curPage with
        | error a => rw [read] at done; cases done
        | ok page =>
          -- A page could be read, so there is a current one.
          have pinned1 : s1.curPage ≠ none := fun none => by rw [none] at read; cases read
          rw [read,ok_bind] at done
          rw [advance_same moved pinned1,ok_bind]
          dsimp only
          rw [read,ok_bind]
          generalize page.getRecord s1.curRec = rec at done ⊢
          cases rec with
          | error status => exact done
          | ok rec =>
            dsimp only at done ⊢
            by_cases accepted : s1.matchRec rec = true
            · rw [if_pos accepted] at done ⊢
              exact done
            · rw [if_neg accepted] at done ⊢
              exact ih done

theorem scanNext_spec {c : Cursor} (owned : k.Owned) (scanning : Scanning k recCnt b s c) :
    scanNext b s = Minirel.HeapFileScan.scanNext b s := by
  obtain ⟨p,low,_⟩ := scanning.stored.page
  have forward : ¬ s.curPageNo < 0 := by rw [scanning.curPageNo]; omega
  have pinned : ¬ s.curPage = none := by rw [scanning.curPage]; exact Option.some_ne_none _
  rw [scanNext,if_neg pinned,Minirel.HeapFileScan.scanNext,if_neg forward,if_neg pinned]
  obtain ⟨b1,s1,c1,moves,finds⟩ := Minirel.HeapFileScan.nextRecords_spec owned _ scanning scanning.turns.2
  have still : s1.curPage ≠ none := by rw [moves.scanning.curPage]; exact Option.some_ne_none _
  generalize found : Minirel.HeapFileScan.nextRecords (HeapFileScan.recordTurns b) b s = outcome at finds
  cases finds with
  | record => exact nextRecords_same found still
  | eof => exact nextRecords_same found still

-- A client that deletes nothing takes the same turns.
theorem turn_spec {c : Cursor} (owned : k.Owned) (scanning : Scanning k recCnt b s c) (seen : List Turn) :
    turn b s = Minirel.HeapFileScan.turn b s (fun _ _ => false) seen := by
  rw [turn,scanNext_spec owned scanning]
  rfl

theorem turns_same {heap : Heap} {filter : Option Condition} {c : Cursor} (owned : k.Owned)
    (reached : Reached k recCnt heap filter (fun _ _ => false) [] b s c) (n : Nat) :
    turns b s n = Minirel.HeapFileScan.turns (fun _ _ => false) b s n := by
  induction n with
  | zero => rfl
  | succ n ih =>
    obtain ⟨seen,s1,b1,c1,done,_,now⟩ := Minirel.HeapFileScan.turns_spec owned reached n
    rw [turns,ih,Minirel.HeapFileScan.turns,done,ok_bind,ok_bind]
    dsimp only
    rw [turn_spec owned now.scanning seen]

theorem session_spec {heap : Heap} (owned : k.Owned) (kept : b.Keeps k) (stored : Stored b.view k.first heap recCnt)
    (s : HeapFileScan)
    (n : Nat) : ∃ seen b', session b s n = .ok (seen,b') ∧ seen.length = n ∧
    Visits (fun _ _ => false) (records heap) seen := by
  obtain ⟨b1,opened,kept1,view1⟩ := kept.openFile
  have owned' : k.opened.Owned := owned
  obtain ⟨m,d,rest,b2,rfl,constructed,kept2,view2⟩ :=
    HeapFile.construct_spec kept1 (by rw [view1]; exact stored) s.toHeapFile
  have scanning : Scanning k.opened recCnt b2 {s with toHeapFile := Minirel.HeapFile.fresh k.opened.first m, filter := none}
      ⟨[],m,d,rest,0⟩ := ⟨kept2,by rw [view2,view1]; exact stored,rfl,rfl,rfl,rfl,rfl⟩
  have all : Cursor.remaining ⟨[],m,d,rest,0⟩ = records ((m,d)::rest) := by
    simp [Cursor.remaining,Cursor.rest,liveFrom_zero,pageRecords]
  have start := Minirel.HeapFileScan.start_spec scanning (fun _ _ => false) rfl all rfl
  obtain ⟨seen,s3,b3,c3,done,length,reached⟩ := Minirel.HeapFileScan.turns_spec owned' start n
  have every : ((records ((m,d)::rest)).filter fun e => Minirel.HeapFileScan.accepts none e.2) =
      records ((m,d)::rest) :=
    List.filter_eq_self.mpr fun e _ => rfl
  refine ⟨seen,Minirel.HeapFileScan.destroy b3 s3,?_,length,by rw [← every]; exact reached.visits⟩
  simp only [session,opened,construct,constructed,ok_bind,pure_ok,Minirel.HeapFileScan.startScan]
  rw [turns_same owned' start,done]
  rfl

end HeapFileScan

-- A client that opens the file for inserting and closes it again as often as it likes.
structure Client where
  pool : Pool
  scan : Option InsertFileScan
  ledger : List Entry

inductive ClientCall where
  | openScan
  | insertRecord (bytes : List UInt8)
  | closeScan
  deriving DecidableEq,Repr

namespace Client

def step (raw : InsertFileScan) (c : Client) : ClientCall → Except Abort Client
  | .openScan =>
    match c.scan with
    | some _ => return c
    | none => do
      let (_,b) := c.pool.openFile
      let (_,s,b) ← InsertFileScan.construct b raw
      return ⟨b,some s,c.ledger⟩
  | .insertRecord bytes =>
    match c.scan with
    | none => return c
    | some s => do
      let (result,s,b) ← InsertFileScan.insertRecord c.pool s (.of bytes)
      return ⟨b,some s,Writers.noted c.ledger bytes result⟩
  | .closeScan =>
    match c.scan with
    | none => return c
    | some s => return ⟨s.destroy c.pool,none,c.ledger⟩

def run (raw : InsertFileScan) : Client → List ClientCall → Except Abort Client
  | c,[] => return c
  | c,call::rest => do run raw (← step raw c call) rest

def settles (c : Client) : ClientCall → Bool
  | .insertRecord bytes => decide (1 ≤ bytes.length ∧ bytes.length < 2 ^ 31) &&
      (decide (dataSize < bytes.length) || c.scan.all (InsertFileScan.settles c.pool · bytes))
  | _ => true

def settlesAll (raw : InsertFileScan) : Client → List ClientCall → Bool
  | _,[] => true
  | c,call::rest => c.settles call && match step raw c call with
    | .ok c' => settlesAll raw c' rest
    | .error _ => true

-- A full scan finds every record that insertRecord has reported as stored.
def NothingLost (raw : HeapFileScan) (c : Client) : Prop :=
  ∀ n, ∃ found seen b', found.Perm c.ledger ∧ HeapFileScan.session c.pool raw n = .ok (seen,b') ∧ seen.length = n ∧
    Minirel.HeapFileScan.Visits (fun _ _ => false) found seen

-- Between two sessions, or within one.
inductive Holding (k : Pool.Books) (heap : Heap) (b : Pool) (ledger : List Entry) : Option InsertFileScan → Prop where
  | closed (k' : Pool.Books) (recCnt : Int) (owned : k'.Owned) (first : k'.first = k.first) (kept : b.Keeps k')
      (stored : Stored b.view k'.first heap recCnt) (same : (records heap).Perm ledger) : Holding k heap b ledger none
  | opened (k' : Pool.Books) (recCnt n : Int) (s : InsertFileScan) (owned : k'.Owned) (first : k'.first = k.first)
      (standing : Minirel.InsertFileScan.Standing k'.opened recCnt b s heap n) (same : (records heap).Perm ledger) :
      Holding k heap b ledger (some s)

variable {c : Client} {heap : Heap}

theorem step_spec {call : ClientCall} (raw : InsertFileScan) (holding : Holding k heap c.pool c.ledger c.scan)
    (meets : c.settles call = true) : ∃ c' heap', step raw c call = .ok c' ∧
    Holding k heap' c'.pool c'.ledger c'.scan := by
  obtain ⟨b,scan,ledger⟩ := c
  dsimp only at holding
  cases call with
  | openScan =>
    cases holding with
    | opened k' recCnt n s owned first standing same =>
      exact ⟨_,heap,rfl,.opened k' recCnt n s owned first standing same⟩
    | closed k' recCnt owned first kept stored same =>
      obtain ⟨b1,opened,kept1,view1⟩ := kept.openFile
      obtain ⟨n,d,rest,b2,rfl,constructed,kept2,view2⟩ :=
        HeapFile.construct_spec kept1 (by rw [view1]; exact stored) raw.toHeapFile
      refine ⟨⟨b2,some ⟨Minirel.HeapFile.fresh k'.opened.first n⟩,ledger⟩,_,?_,.opened k' recCnt n _ owned first
        ⟨kept2.weaken ⟨rfl,rfl,rfl⟩ fun m marked => marked.elim (fun here => absurd here.1 Bool.false_ne_true) .inr,
          by rw [view2,view1]; exact stored,by simp,rfl,rfl,rfl,rfl⟩ same⟩
      simp only [step,opened,InsertFileScan.construct,constructed,ok_bind]
      rfl
  | insertRecord bytes =>
    cases holding with
    | closed k' recCnt owned first kept stored same => exact ⟨_,heap,rfl,.closed k' recCnt owned first kept stored same⟩
    | opened k' recCnt n s owned first standing same =>
      simp only [settles,Option.all_some,Bool.and_eq_true,Bool.or_eq_true,decide_eq_true_eq] at meets
      obtain ⟨⟨positive,int⟩,settled⟩ := meets
      obtain ⟨result,s',b',inserted,k2,recCnt2,heap2,n2,owned2,first2,standing2,same2⟩ :=
        InsertFileScan.insertRecord_spec owned standing positive int settled same
      refine ⟨⟨b',some s',_⟩,heap2,?_,.opened k2 recCnt2 n2 s' owned2 (first2.trans first) standing2 same2⟩
      simp only [step,inserted,ok_bind]
      rfl
  | closeScan =>
    cases holding with
    | closed k' recCnt owned first kept stored same => exact ⟨_,heap,rfl,.closed k' recCnt owned first kept stored same⟩
    | opened k' recCnt n s owned first standing same =>
      obtain ⟨kept,view⟩ := standing.destroy_spec owned
      exact ⟨⟨s.destroy b,none,ledger⟩,heap,rfl,.closed k' recCnt owned first kept
        (by rw [view]; exact standing.stored) same⟩

theorem run_spec {calls : List ClientCall} (raw : InsertFileScan) (holding : Holding k heap c.pool c.ledger c.scan)
    (meets : settlesAll raw c calls = true) :
    ∃ c' heap', run raw c calls = .ok c' ∧ Holding k heap' c'.pool c'.ledger c'.scan := by
  induction calls generalizing heap c with
  | nil => exact ⟨c,heap,rfl,holding⟩
  | cons call rest ih =>
    rw [settlesAll,Bool.and_eq_true] at meets
    obtain ⟨c1,heap1,stepped,holding1⟩ := step_spec raw holding meets.1
    have later := meets.2
    rw [stepped] at later
    obtain ⟨c2,heap2,done,holding2⟩ := ih holding1 later
    exact ⟨c2,heap2,by rw [run,stepped]; exact done,holding2⟩

theorem Holding.stored {b : Pool} {ledger : List Entry} {scan : Option InsertFileScan}
    (holding : Holding k heap b ledger scan) :
    ∃ recCnt, Stored b.view k.first heap recCnt ∧ (records heap).Perm ledger := by
  cases holding with
  | closed k' recCnt owned first kept stored same => exact ⟨recCnt,by rw [← first]; exact stored,same⟩
  | opened k' recCnt n s owned first standing same =>
    have stored := standing.stored
    have opened : k'.opened.first = k.first := first
    rw [opened] at stored
    exact ⟨recCnt,stored,same⟩

-- Records survive any sessions in which a page that runs full is the last one and has taken a
-- record in the same session.
theorem sessions_lose_nothing_linking_last (k : Pool.Books) (heap : Heap) (recCnt : Int) (raw : HeapFileScan) (b : Pool)
    (ledger : List Entry) (kept : b.Keeps k) (owned : k.Owned) (stored : Stored b.view k.first heap recCnt)
    (same : (records heap).Perm ledger) (calls : List ClientCall)
    (meets : settlesAll ⟨raw.toHeapFile⟩ ⟨b,none,ledger⟩ calls = true) :
    ∃ c, run ⟨raw.toHeapFile⟩ ⟨b,none,ledger⟩ calls = .ok c ∧
      (∃ heap' recCnt', Stored c.pool.view k.first heap' recCnt' ∧ (records heap').Perm c.ledger) ∧
      (c.scan = none → NothingLost raw c) := by
  obtain ⟨c,heap',done,holding⟩ := run_spec ⟨raw.toHeapFile⟩ (c:=⟨b,none,ledger⟩)
    (.closed k recCnt owned rfl kept stored same) meets
  obtain ⟨recCnt',stored',same'⟩ := holding.stored
  refine ⟨c,done,⟨heap',recCnt',stored',same'⟩,fun closed n => ?_⟩
  rw [closed] at holding
  cases holding with
  | closed k' _ owned' _ kept' stored'' _ =>
    obtain ⟨seen,b',scanned,length,visits⟩ := HeapFileScan.session_spec owned' kept' stored'' raw n
    exact ⟨records heap',seen,b',same',scanned,length,visits⟩

theorem sessions_lose_nothing_linking_last_two :
    let calls := [.openScan,.insertRecord [1],.insertRecord (List.replicate 998 2),.insertRecord [3],.closeScan,
      .openScan,.closeScan]
    ∃ c, run ⟨Writers.rawScan.toHeapFile⟩ ⟨Writers.emptyFile,none,[]⟩ calls = .ok c ∧
      (c.scan = none → NothingLost Writers.rawScan c) := by
  intro calls
  obtain ⟨hdr,n,kept,stored⟩ := Writers.emptyFile_stored
  obtain ⟨c,done,_,lossless⟩ := sessions_lose_nothing_linking_last _ _ _ Writers.rawScan Writers.emptyFile [] kept
    (fun _ marked => False.elim marked) stored (by rfl) calls (by decide +kernel)
  exact ⟨c,done,lossless⟩

-- The second session finds the first page full and unpins it as clean after linking a page to it.
def reopening : List ClientCall :=
  [.openScan,.insertRecord (List.replicate 996 1),.closeScan,.openScan,.insertRecord [2],.closeScan]

theorem sessions_lose_a_record :
    ∃ c, run ⟨Writers.rawScan.toHeapFile⟩ ⟨Writers.emptyFile,none,[]⟩ reopening = .ok c ∧
      c.scan = none ∧ ¬ NothingLost Writers.rawScan c := by
  have ran : ((run ⟨Writers.rawScan.toHeapFile⟩ ⟨Writers.emptyFile,none,[]⟩ reopening).toOption.map fun c =>
      (c.scan.isNone,c.ledger.length,(HeapFileScan.session c.pool Writers.rawScan 2).toOption.map fun r =>
        r.1.map Turn.rid?)) =
        some (true,2,some [some ⟨2,0⟩,none]) := by decide +kernel
  obtain ⟨c,done,facts⟩ := Option.map_eq_some_iff.mp ran
  simp only [Prod.mk.injEq] at facts
  obtain ⟨closed,two,turns⟩ := facts
  refine ⟨c,?_,Option.isNone_iff_eq_none.mp closed,fun lossless => ?_⟩
  · generalize run ⟨Writers.rawScan.toHeapFile⟩ ⟨Writers.emptyFile,none,[]⟩ reopening = result at done
    cases result with
    | error a => cases done
    | ok c' => cases done; rfl
  · obtain ⟨found,seen,b',same,scanned,length,visits⟩ := lossless 2
    have all := same.length_eq.trans two
    rw [scanned] at turns
    have second := visits.records 1 (by omega) (by omega)
    have listed : seen.map Turn.rid? = [some ⟨2,0⟩,none] := Option.some.inj turns
    have here : (seen.map Turn.rid?)[1]? = some none := by rw [listed]; rfl
    rw [List.getElem?_map,second] at here
    cases here

end Client
end Minirel.Stage4
