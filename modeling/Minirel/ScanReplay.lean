import Minirel.HeapSessions

namespace Minirel
open ByteMemory SlotDirectory Page Heap

namespace HeapFileScan

-- Some calls of scanNext, and what each returned.
def nexts : Nat → Pool → HeapFileScan → Except Abort (List (Except Status RID) × HeapFileScan × Pool)
  | 0,b,s => return ([],s,b)
  | n+1,b,s => do
    let (result,s,b) ← scanNext b s
    let (results,s,b) ← nexts n b s
    return (result::results,s,b)

def listed (n : Nat) (b : Pool) (s : HeapFileScan) : Except Abort (List (Except Status RID)) := do
  let (results,_,_) ← nexts n b s
  return results

-- What they return while these records are to come.
def replies : Nat → List Entry → List (Except Status RID)
  | 0,_ => []
  | n+1,[] => .error .fileEof::replies n []
  | n+1,e::rest => .ok e.1::replies n rest

def wanted (s : HeapFileScan) (es : List Entry) : List Entry := es.filter fun e => s.matchRec (.of e.2)

variable {k : Pool.Books} {recCnt : Int} {b b' : Pool} {s s' : HeapFileScan} {c c' : Cursor} {heap : Heap}

theorem wanted_congr (same : s'.filter = s.filter) (es : List Entry) : wanted s' es = wanted s es :=
  List.filter_congr fun _ _ => Scanning.matchRec_congr same _

theorem Finds.replies {outcome : Except Abort (Except Status RID × HeapFileScan × Pool)}
    (finds : Finds k recCnt b s c b' s' c' outcome)
    (same : s'.filter = s.filter) :
    ∃ result, outcome = .ok (result,s',b') ∧
      ∀ n, replies (n + 1) (wanted s c.remaining) = result::HeapFileScan.replies n (wanted s' c'.remaining) := by
  cases finds with
  | record skipped bytes remaining passed accepted current =>
    refine ⟨_,rfl,fun n => ?_⟩
    have next : wanted s c.remaining = (s'.curRec,bytes)::wanted s' c'.remaining :=
      filter_next remaining passed accepted same
    rw [next]
    rfl
  | eof passed done =>
    refine ⟨_,rfl,fun n => ?_⟩
    have nothing : wanted s c.remaining = [] := filter_passed passed
    rw [nothing,done]
    rfl

theorem nexts_spec (owned : k.Owned) (scanning : Scanning k recCnt b s c) (n : Nat) :
    ∃ b' s' c', nexts n b s = .ok (replies n (wanted s c.remaining),s',b') ∧ Moves k recCnt b s c b' s' c' := by
  induction n generalizing b s c with
  | zero => exact ⟨b,s,c,rfl,scanning.still⟩
  | succ n ih =>
    obtain ⟨b1,s1,c1,moves,finds⟩ := scanNext_spec owned scanning
    obtain ⟨result,found,told⟩ := finds.replies moves.filter
    obtain ⟨b2,s2,c2,later,moves2⟩ := ih moves.scanning
    refine ⟨b2,s2,c2,?_,moves.trans moves2⟩
    rw [nexts,found,ok_bind]
    dsimp only
    rw [later,ok_bind,told]
    rfl

theorem listed_spec (owned : k.Owned) (scanning : Scanning k recCnt b s c) (n : Nat) :
    listed n b s = .ok (replies n (wanted s c.remaining)) := by
  obtain ⟨b',s',c',done,_⟩ := nexts_spec owned scanning n
  rw [listed,done]
  rfl

section marks

-- scanNext leaves the mark alone.
def SameMark (s s' : HeapFileScan) : Prop := s'.markedPageNo = s.markedPageNo ∧ s'.markedRec = s.markedRec

theorem SameMark.trans {s'' : HeapFileScan} (one : SameMark s s') (two : SameMark s' s'') : SameMark s s'' :=
  ⟨two.1.trans one.1,two.2.trans one.2⟩

theorem nextPages_mark {turns : Nat} {result : Except Status Unit} (ran : nextPages turns b s = .ok (result,s',b')) :
    SameMark s s' := by
  induction turns generalizing b s with
  | zero => cases ran
  | succ turns ih =>
    rw [nextPages] at ran
    obtain ⟨page,_,ran⟩ := of_bind_ok ran
    dsimp only at ran
    split at ran
    · cases ran
      exact ⟨rfl,rfl⟩
    · split at ran
      · split at ran
        · obtain ⟨page',_,ran⟩ := of_bind_ok ran
          split at ran
          · cases ran
            exact ⟨rfl,rfl⟩
          · have later := ih ran
            exact ⟨later.1,later.2⟩
        · cases ran
          exact ⟨rfl,rfl⟩
      · cases ran
        exact ⟨rfl,rfl⟩

theorem advance_mark {result : Except Status Unit} (ran : advance b s = .ok (result,s',b')) : SameMark s s' := by
  rw [advance] at ran
  obtain ⟨page,_,ran⟩ := of_bind_ok ran
  split at ran
  · cases ran
    exact ⟨rfl,rfl⟩
  · exact nextPages_mark ran

theorem nextRecords_mark {turns : Nat} {result : Except Status RID}
    (ran : nextRecords turns b s = .ok (result,s',b')) : SameMark s s' := by
  induction turns generalizing b s with
  | zero => cases ran
  | succ turns ih =>
    rw [nextRecords] at ran
    obtain ⟨⟨moved,s1,b1⟩,advanced,ran⟩ := of_bind_ok ran
    have same := advance_mark advanced
    cases moved with
    | error status =>
      cases ran
      exact same
    | ok _ =>
      dsimp only at ran
      obtain ⟨page,_,ran⟩ := of_bind_ok ran
      split at ran
      · cases ran
        exact same
      · split at ran
        · cases ran
          exact same
        · exact same.trans (ih ran)

theorem Scanning.scanNext_mark {result : Except Status RID} (scanning : Scanning k recCnt b s c)
    (ran : scanNext b s = .ok (result,s',b')) :
    SameMark s s' := by
  obtain ⟨p,low,_⟩ := scanning.stored.page
  have forward : ¬ s.curPageNo < 0 := by rw [scanning.curPageNo]; omega
  have pinned : ¬ s.curPage = none := by rw [scanning.curPage]; exact Option.some_ne_none _
  rw [scanNext,if_neg forward,if_neg pinned] at ran
  exact nextRecords_mark ran

theorem nexts_mark (owned : k.Owned) (scanning : Scanning k recCnt b s c) {n : Nat} {results : List (Except Status RID)}
    (ran : nexts n b s = .ok (results,s',b')) : SameMark s s' := by
  induction n generalizing b s c results with
  | zero =>
    cases ran
    exact ⟨rfl,rfl⟩
  | succ n ih =>
    obtain ⟨b1,s1,c1,moves,finds⟩ := scanNext_spec owned scanning
    obtain ⟨result,found,_⟩ := finds.replies moves.filter
    rw [nexts,found,ok_bind] at ran
    dsimp only at ran
    obtain ⟨⟨results2,s2,b2⟩,later,ran⟩ := of_bind_ok ran
    cases ran
    exact (scanning.scanNext_mark found).trans (ih moves.scanning later)

end marks

section replay

-- What markScan has noted of the position c.
structure Marks (s : HeapFileScan) (c : Cursor) : Prop where
  pageNo : s.markedPageNo = c.pageNo
  slot : s.markedRec.slotNo = c.next - 1

theorem Scanning.markScan (scanning : Scanning k recCnt b s c) :
    Scanning k recCnt b s.markScan.2 c ∧ Marks s.markScan.2 c ∧ s.markScan.2.filter = s.filter :=
  ⟨⟨scanning.kept,scanning.stored,scanning.headerPage,scanning.headerPageNo,scanning.curPage,scanning.curPageNo,
    scanning.slot⟩,
    ⟨scanning.curPageNo,scanning.slot⟩,rfl⟩

-- Whatever the scan has come to, resetScan takes it back to the mark.
theorem resetScan_spec (owned : k.Owned) (scanning : Scanning k recCnt b s c') (marks : Marks s c)
    (same : c'.heap = c.heap) :
    ∃ b1 s1, resetScan b s = (.ok,s1,b1) ∧ Scanning k recCnt b1 s1 c ∧ Marks s1 c ∧ s1.filter = s.filter ∧
      SameMark s s1 ∧
      s1.curRec = s.markedRec := by
  have stored := scanning.stored
  rw [same] at stored
  unfold resetScan
  by_cases moved : s.markedPageNo ≠ s.curPageNo
  · obtain ⟨b1,unpinned,kept1,view1⟩ := scanning.kept.unPinPage (owned.hold _ _) s.curDirtyFlag id
    obtain ⟨p,_,seen,_⟩ := stored.page
    have seen1 : b1.view c.pageNo = some p := by rw [view1]; exact seen
    obtain ⟨b2,read,kept2,view2⟩ := kept1.readPage seen1
    refine ⟨b2,{s with curPage := some c.pageNo, curPageNo := c.pageNo, curDirtyFlag := false, curRec := s.markedRec},
      ?_,?_,
      ⟨marks.pageNo,marks.slot⟩,rfl,⟨rfl,rfl⟩,rfl⟩
    · rw [if_pos moved]
      simp only [scanning.curPage,scanning.curPageNo,unpinned,marks.pageNo,read]
      rfl
    · exact ⟨kept2,by rw [view2,view1]; exact stored,scanning.headerPage,scanning.headerPageNo,rfl,rfl,marks.slot⟩
  · rw [if_neg moved]
    have here : c'.pageNo = c.pageNo := by
      rw [← scanning.curPageNo,← marks.pageNo]
      exact (not_not.mp moved).symm
    refine ⟨b,{s with curRec := s.markedRec},rfl,?_,⟨marks.pageNo,marks.slot⟩,rfl,⟨rfl,rfl⟩,rfl⟩
    exact ⟨by rw [← here]; exact scanning.kept,stored,scanning.headerPage,scanning.headerPageNo,by rw [← here]; exact scanning.curPage,
      by rw [← here]; exact scanning.curPageNo,marks.slot⟩

-- Rounds of scanNext calls, with a resetScan behind each round.
def rounds : List Nat → Pool → HeapFileScan → Except Abort (HeapFileScan × Pool)
  | [],b,s => return (s,b)
  | n::rest,b,s => do
    let (_,s,b) ← nexts n b s
    let (_,s,b) := resetScan b s
    rounds rest b s

theorem rounds_spec (owned : k.Owned) (list : List Nat) (scanning : Scanning k recCnt b s c) (marks : Marks s c) :
    ∃ b' s', rounds list b s = .ok (s',b') ∧ Scanning k recCnt b' s' c ∧ Marks s' c ∧ s'.filter = s.filter := by
  induction list generalizing b s with
  | nil => exact ⟨b,s,rfl,scanning,marks,rfl⟩
  | cons n rest ih =>
    obtain ⟨b1,s1,c1,done,moves⟩ := nexts_spec owned scanning n
    have mark := nexts_mark owned scanning done
    obtain ⟨b2,s2,reset,scanning2,marks2,filter2,_⟩ := resetScan_spec owned moves.scanning
      ⟨mark.1.trans marks.pageNo,by rw [mark.2]; exact marks.slot⟩ moves.heap
    obtain ⟨b3,s3,later,scanning3,marks3,filter3⟩ := ih scanning2 marks2
    refine ⟨b3,s3,?_,scanning3,marks3,filter3.trans (filter2.trans moves.filter)⟩
    rw [rounds,done,ok_bind]
    dsimp only
    rw [reset]
    exact later

-- A scan from its constructor to one of its positions.
def position (b : Pool) (raw : HeapFileScan) (offset length : Int) (type : Option Datatype)
    (filter : Option (List UInt8)) (op : Operator)
    (n : Nat) : Except Abort (HeapFileScan × Pool) := do
  let (_,b) := b.openFile
  let (_,s,b) ← construct b raw
  let (_,s) := s.startScan offset length type filter op
  let (_,s,b) ← nexts n b s
  return (s,b)

theorem position_spec {filter : Option (List UInt8)} (owned : k.Owned) (kept : b.Keeps k)
    (stored : Stored b.view k.first heap recCnt)
    (raw : HeapFileScan) (offset length : Int) (type : Option Datatype) (op : Operator) (n : Nat) :
    ∃ b' s' c', position b raw offset length type filter op n = .ok (s',b') ∧ Scanning k.opened recCnt b' s' c' ∧
      c'.heap = heap := by
  obtain ⟨b1,opened,kept1,view1⟩ := kept.openFile
  have owned' : k.opened.Owned := owned
  obtain ⟨b2,s2,c,constructed,scanning,whole,_,_,_⟩ := construct_spec kept1 (by rw [view1]; exact stored) raw
  have scanning2 := scanning.filtered (s2.startScan offset length type filter op).2.filter
  rw [← startScan_keeps] at scanning2
  obtain ⟨b3,s3,c3,done,moves⟩ := nexts_spec owned' scanning2 n
  refine ⟨b3,s3,c3,?_,moves.scanning,moves.heap.trans whole⟩
  simp only [position,opened,constructed,ok_bind,done]
  rfl

-- From a mark, what the calls return after any rounds is what they return at once.
theorem reset_replays (b : Pool) (k : Pool.Books) (heap : Heap) (recCnt : Int) (kept : b.Keeps k) (owned : k.Owned)
    (stored : Stored b.view k.first heap recCnt) (raw : HeapFileScan) (offset length : Int) (type : Option Datatype)
    (filter : Option (List UInt8)) (op : Operator) (n : Nat) :
    ∃ s b1, position b raw offset length type filter op n = .ok (s,b1) ∧ ∀ (list : List Nat) (m : Nat),
      ∃ results s2 b2, listed m b1 s.markScan.2 = .ok results ∧ rounds list b1 s.markScan.2 = .ok (s2,b2) ∧
        listed m b2 s2 = .ok results := by
  obtain ⟨b1,s,c,positioned,scanning,_⟩ := position_spec owned kept stored raw offset length type op n
  have owned' : k.opened.Owned := owned
  obtain ⟨marked,marks,_⟩ := scanning.markScan
  refine ⟨s,b1,positioned,fun list m => ?_⟩
  obtain ⟨b2,s2,done,scanning2,_,filter2⟩ := rounds_spec owned' list marked marks
  refine ⟨_,s2,b2,listed_spec owned' marked m,done,?_⟩
  rw [listed_spec owned' scanning2 m,wanted_congr filter2]

theorem reset_replays_sample : ∃ s b1, position (sampleFile fun _ => zero 1024) ⟨HeapFile.fresh 0 0,none,0,nullRid⟩ 0 4
    (some .integer)
      (some [1,0,0,0]) .eq 1 = .ok (s,b1) ∧ ∃ results s2 b2, listed 3 b1 s.markScan.2 = .ok results ∧
    rounds [1,4] b1 s.markScan.2 = .ok (s2,b2) ∧ listed 3 b2 s2 = .ok results := by
  obtain ⟨hdr,heap,recCnt,kept,stored⟩ := sampleFile_stored fun _ => zero 1024
  obtain ⟨s,b1,positioned,replays⟩ := reset_replays (sampleFile fun _ => zero 1024) _ heap recCnt kept
    (fun _ marked => False.elim marked) stored
    ⟨HeapFile.fresh 0 0,none,0,nullRid⟩ 0 4 (some .integer) (some [1,0,0,0]) .eq 1
  exact ⟨s,b1,positioned,replays [1,4] 3⟩

end replay
section rescan

-- A scan that has given its page back: only the header page is still pinned.
structure Ended (k : Pool.Books) (recCnt : Int) (heap : Heap) (b : Pool) (s : HeapFileScan) : Prop where
  kept : b.Keeps (k.hold k.first s.hdrDirtyFlag)
  stored : Stored b.view k.first heap recCnt
  headerPage : s.headerPage = some k.first
  headerPageNo : s.headerPageNo = k.first
  curPage : s.curPage = none

-- Where a scan can be when endScan is called.
def Open (k : Pool.Books) (recCnt : Int) (heap : Heap) (b : Pool) (s : HeapFileScan) : Prop :=
  (∃ c, Scanning k recCnt b s c ∧ c.heap = heap) ∨ Ended k recCnt heap b s

-- The scan is past the end of the file for good.
def Stuck (s : HeapFileScan) : Prop := s.curPage = none ∧ s.curPageNo < 0

def firstRecords (heap : Heap) : List Entry := heap.head?.elim [] fun p => pageRecords p.1 p.2

theorem Open.endScan_spec (owned : k.Owned) (open_ : Open k recCnt heap b s) :
    ∃ s' b', endScan b s = (.ok,s',b') ∧ Ended k recCnt heap b' s' ∧ s'.filter = s.filter ∧
      (s'.curPageNo < 0 ↔ Stuck s) := by
  rcases open_ with ⟨c,scanning,whole⟩ | ended
  · obtain ⟨b',unpinned,kept,view⟩ := scanning.kept.unPinPage (owned.hold _ _) s.curDirtyFlag id
    refine ⟨{s with curPage := none, curPageNo := 0, curDirtyFlag := false},b',
      by simp only [endScan,scanning.curPage,scanning.curPageNo,unpinned],
      ⟨kept,?_,scanning.headerPage,scanning.headerPageNo,rfl⟩,rfl,iff_of_false (Int.lt_irrefl 0) ?_⟩
    · rw [view,← whole]
      exact scanning.stored
    · rintro ⟨none_pinned,_⟩
      rw [scanning.curPage] at none_pinned
      cases none_pinned
  · refine ⟨s,b,by simp only [endScan,ended.curPage],ended,rfl,?_⟩
    exact ⟨fun low => ⟨ended.curPage,low⟩,And.right⟩

theorem listed_stuck (low : s.curPageNo < 0) (n : Nat) : listed n b s = .ok (replies n []) := by
  have stays : nexts n b s = .ok (replies n [],s,b) := by
    induction n with
    | zero => rfl
    | succ n ih =>
      rw [nexts,scanNext,if_pos low,pure_ok,ok_bind]
      dsimp only
      rw [ih]
      rfl
  rw [listed,stays]
  rfl

-- The first scanNext reads the first page of the file again, and gives up when that has no record.
theorem Ended.listed_spec (owned : k.Owned) (ended : Ended k recCnt heap b s) (forward : ¬ s.curPageNo < 0) (n : Nat) :
    listed n b s = .ok (replies n (if firstRecords heap = [] then [] else wanted s (records heap))) := by
  obtain ⟨⟨m,d⟩,rest,rfl⟩ := List.exists_cons_of_ne_nil ended.stored.some_page
  obtain ⟨header,at_header,first,_⟩ := ended.stored.header
  obtain ⟨p,low,seen,held,next⟩ := ended.stored.chain.1
  obtain ⟨b1,read,kept1,view1⟩ := ended.kept.readPage seen
  have seen1 : b1.view m = some p := by rw [view1]; exact seen
  have inside : ¬ m = -1 := by omega
  have started : scanNext b s = scanFirst b s := by rw [scanNext,if_neg forward,if_pos ended.curPage]
  have at_first : FileHdrPage.firstPage header = m := first
  have header_read : b.deref s.headerPage = .ok header := by
    rw [ended.headerPage]
    exact ended.kept.deref at_header
  have page_read := kept1.deref seen1
  have record := held.firstRecord_spec
  cases n with
  | zero => rfl
  | succ n =>
  cases on_page : entries d with
  | nil =>
    have none_first : firstRecords ((m,d)::rest) = [] := by
      rw [firstRecords,List.head?_cons,Option.elim_some,pageRecords,on_page]
      rfl
    obtain ⟨b2,unpinned,_,_⟩ := kept1.unPinPage (owned.hold _ _) false id
    rw [on_page] at record
    dsimp only at record
    have found : scanNext b s =
        .ok (.error .fileEof,{s with curPage := none, curPageNo := -1, curDirtyFlag := false, curRec := nullRid},
        b2) := by
      rw [started]
      simp only [scanFirst,header_read,ok_bind,at_first,if_neg inside,read,ne_eq,not_true_eq_false,if_false,
        page_read,record,unpinned]
      rfl
    have later := listed_stuck (b:=b2)
      (s:={s with curPage := none, curPageNo := -1, curDirtyFlag := false, curRec := nullRid})
      (Int.negSucc_lt_zero 0) n
    rw [if_pos none_first]
    rw [listed] at later ⊢
    obtain ⟨⟨results,s3,b3⟩,done,same⟩ := of_bind_ok later
    cases same
    rw [nexts,found,ok_bind]
    dsimp only
    rw [done]
    rfl
  | cons entry more =>
    obtain ⟨j,bytes⟩ := entry
    have some_first : firstRecords ((m,d)::rest) ≠ [] := by
      rw [firstRecords,List.head?_cons,Option.elim_some,pageRecords,on_page]
      exact List.cons_ne_nil _ _
    rw [on_page] at record
    dsimp only at record
    rw [← liveFrom_zero] at on_page
    obtain ⟨_,live,rfl⟩ := liveFrom_step on_page
    rw [liveFrom_zero] at on_page
    have stored : Stored b1.view k.first ([] ++ (m,d)::rest) recCnt := by rw [view1]; exact ended.stored
    have got : p.getRecord ⟨m,j⟩ = .ok (.of bytes) := held.getRecord_live live (stored.nonempty live)
    generalize here : ({s with curPage := some m, curPageNo := m, curDirtyFlag := false, curRec := ⟨m,j⟩} :
      HeapFileScan) = s1
    have scanning : Scanning k recCnt b1 s1 ⟨[],m,d,rest,j+1⟩ := by
      subst here
      exact ⟨kept1,stored,ended.headerPage,ended.headerPageNo,rfl,rfl,by simp⟩
    have filter : s1.filter = s.filter := by rw [← here]
    have all : records ((m,d)::rest) = (⟨m,j⟩,bytes)::(⟨[],m,d,rest,j+1⟩ : Cursor).remaining := by
      simp [Cursor.remaining,Cursor.rest,pageRecords,on_page]
    have rests := listed_spec owned scanning
    rw [if_neg some_first,all]
    by_cases accepted : s.matchRec (.of bytes) = true
    · have found : scanNext b s = .ok (.ok ⟨m,j⟩,s1,b1) := by
        rw [started,← here]
        simp only [scanFirst,header_read,ok_bind,at_first,if_neg inside,read,ne_eq,not_true_eq_false,if_false,
          page_read,record,got]
        exact if_pos accepted
      have later := rests n
      rw [wanted_congr filter] at later
      rw [listed] at later ⊢
      obtain ⟨⟨results,s3,b3⟩,done,same⟩ := of_bind_ok later
      cases same
      rw [wanted,List.filter_cons,if_pos accepted,nexts,found,ok_bind]
      dsimp only
      rw [done]
      rfl
    · have found : scanNext b s = scanNext b1 s1 := by
        have pinned : scanNext b1 s1 = nextRecords (recordTurns b1) b1 s1 := by
          have off_end : ¬ m < 0 := by omega
          rw [← here,scanNext,if_neg off_end,if_neg (Option.some_ne_none _)]
        rw [pinned,started,← here]
        simp only [scanFirst,header_read,ok_bind,at_first,if_neg inside,read,ne_eq,not_true_eq_false,if_false,
          page_read,record,got]
        exact if_neg accepted
      have same : listed (n + 1) b s = listed (n + 1) b1 s1 := by rw [listed,listed,nexts,nexts,found]
      rw [same,rests,wanted_congr filter,wanted,wanted,List.filter_cons,if_neg accepted]

-- A rescan is a fresh scan where the scan is not past the end for good and the first page has a
-- record, and where there is nothing to find.
theorem rescan_equals_fresh_iff (b : Pool) (k : Pool.Books) (heap : Heap) (recCnt : Int) (owned : k.Owned)
    (s raw : HeapFileScan)
    (open_ : Open k recCnt heap b s) :
    ∃ (s' : HeapFileScan) (b' : Pool) (fresh : HeapFileScan) (bf : Pool)
      (again first : Nat → List (Except Status RID)), endScan b s = (.ok,s',b') ∧
      construct b'.openFile.2 raw = .ok (.ok,fresh,bf) ∧
      (∀ n, listed n b' s' = .ok (again n)) ∧ (∀ n, listed n bf {fresh with filter := s.filter} = .ok (first n)) ∧
      ((∀ n, again n = first n) ↔ (¬ Stuck s ∧ firstRecords heap ≠ []) ∨ wanted s (records heap) = []) := by
  obtain ⟨s',b',ended,state,filter,stuck⟩ := open_.endScan_spec owned
  obtain ⟨b1,opened,kept1,view1⟩ := state.kept.openFile
  have owned1 : (k.hold k.first s'.hdrDirtyFlag).opened.Owned := owned.hold _ _
  obtain ⟨bf,fresh,c,constructed,scanning,_,all,_⟩ := construct_spec kept1 (by rw [view1]; exact state.stored) raw
  have afresh := listed_spec owned1 (scanning.filtered s.filter)
  have same : ∀ es, wanted {fresh with filter := s.filter} es = wanted s es := wanted_congr rfl
  rw [all,same] at afresh
  have none_first : ∀ es : List Entry, (∀ n, replies n [] = replies n es) ↔ es = [] := by
    intro es
    refine ⟨fun agree => ?_,fun empty n => by rw [empty]⟩
    cases es with
    | nil => rfl
    | cons e rest => cases agree 1
  by_cases low : s'.curPageNo < 0
  · refine ⟨s',b',fresh,bf,_,_,ended,by rw [opened]; exact constructed,listed_stuck low,afresh,?_⟩
    rw [none_first]
    exact ⟨.inr,fun found => found.elim (fun ahead => absurd (stuck.mp low) ahead.1) id⟩
  · refine ⟨s',b',fresh,bf,_,_,ended,by rw [opened]; exact constructed,state.listed_spec owned low,afresh,?_⟩
    rw [wanted_congr filter]
    by_cases empty : firstRecords heap = []
    · simp only [if_pos empty,none_first]
      exact ⟨.inr,fun found => found.elim (fun ahead => absurd empty ahead.2) id⟩
    · simp only [if_neg empty]
      exact ⟨fun _ => .inl ⟨fun there => low (stuck.mpr there),empty⟩,fun _ _ => trivial⟩

theorem rescan_equals_fresh_iff_sample : ∃ (k : Pool.Books) (heap : Heap) (recCnt : Int) (b : Pool)
    (s s' : HeapFileScan) (b' : Pool)
    (fresh : HeapFileScan) (bf : Pool) (again first : Nat → List (Except Status RID)), Open k recCnt heap b s ∧
    endScan b s = (.ok,s',b') ∧
      (∀ n, listed n b' s' = .ok (again n)) ∧ (∀ n, listed n bf {fresh with filter := s.filter} = .ok (first n)) ∧
      ((∀ n, again n = first n) ↔ (¬ Stuck s ∧ firstRecords heap ≠ []) ∨ wanted s (records heap) = []) := by
  obtain ⟨hdr,heap,recCnt,kept,stored⟩ := sampleFile_stored fun _ => zero 1024
  have owned : ({Pool.Books.unused with first := hdr} : Pool.Books).Owned := fun _ marked => False.elim marked
  obtain ⟨b,s,c,_,scanning,whole,_⟩ := construct_spec kept stored ⟨HeapFile.fresh 0 0,none,0,nullRid⟩
  obtain ⟨s',b',fresh,bf,again,first,ended,_,rescanned,scanned,equal⟩ :=
    rescan_equals_fresh_iff b _ heap recCnt owned s ⟨HeapFile.fresh 0 0,none,0,nullRid⟩ (.inl ⟨c,scanning,whole⟩)
  exact ⟨_,heap,recCnt,b,s,s',b',fresh,bf,again,first,.inl ⟨c,scanning,whole⟩,ended,rescanned,scanned,equal⟩

-- A file of two pages whose first page has lost its only record.
def emptiedSessions : List Session :=
  [.insert [List.replicate 996 1,[2]],.scan 0 0 (some .string) none .eq [.scanNext,.deleteRecord]]

def emptiedFile : Pool :=
  (Session.lifetime (fun _ => zero 1024) [114] ⟨HeapFile.fresh 0 0,none,0,nullRid⟩ emptiedSessions).toOption.elim
    (.created fun _ => zero 1024) Prod.snd

theorem emptiedFile_stored : ∃ hdr heap recCnt, emptiedFile.Keeps {Pool.Books.unused with first := hdr} ∧
    Stored emptiedFile.view hdr heap recCnt := by
  obtain ⟨hdr,n,b0,created,kept0,stored0⟩ := createHeapFile_spec (fun _ => zero 1024) [114]
  have owned : ({Pool.Books.unused with first := hdr} : Pool.Books).Owned := fun _ marked => False.elim marked
  have storable : ∀ session ∈ emptiedSessions, session.Storable := by
    intro session member
    simp only [emptiedSessions,List.mem_cons,List.not_mem_nil,or_false] at member
    rcases member with rfl | rfl
    · intro bytes inside
      simp only [List.mem_cons,List.not_mem_nil,or_false] at inside
      rcases inside with rfl | rfl
      · rw [InsertFileScan.Storable,List.length_replicate]
        exact ⟨by decide,by decide⟩
      · exact ⟨by decide,by decide⟩
    · trivial
  have empty : (records [(n,[])]).Perm ([] : List Entry) := by rfl
  obtain ⟨recCnt,heap,b,ledger,ran,kept,stored,_⟩ :=
    Session.runAll_spec owned kept0 stored0 ⟨HeapFile.fresh 0 0,none,0,nullRid⟩ storable empty
  have same : emptiedFile = b := by
    rw [emptiedFile,Session.lifetime,created,ok_bind]
    dsimp only
    rw [ran]
    rfl
  rw [same]
  exact ⟨hdr,heap,recCnt,kept,stored⟩

-- The rescan ends at once, the fresh scan finds the record of the second page.
theorem rescan_misses : ¬ ∀ (b : Pool) (k : Pool.Books) (heap : Heap) (recCnt : Int), k.Owned → ∀ s raw :
    HeapFileScan, Open k recCnt heap b s →
    ∀ s' b' fresh bf, endScan b s = (.ok,s',b') → construct b'.openFile.2 raw = .ok (.ok,fresh,bf) →
      ∀ n, listed n b' s' = listed n bf {fresh with filter := s.filter} := by
  intro always
  obtain ⟨hdr,heap,recCnt,kept,stored⟩ := emptiedFile_stored
  have owned : ({Pool.Books.unused with first := hdr} : Pool.Books).Owned := fun _ marked => False.elim marked
  have owned1 : ({Pool.Books.unused with first := hdr} : Pool.Books).opened.Owned := fun _ marked => False.elim marked
  obtain ⟨b,s,c,constructed,scanning,whole,_,clear,_⟩ := construct_spec kept stored ⟨HeapFile.fresh 0 0,none,0,nullRid⟩
  obtain ⟨s',b',ended,state,_,_⟩ := Open.endScan_spec owned (.inl ⟨c,scanning,whole⟩)
  obtain ⟨b1,opened,kept1,view1⟩ := state.kept.openFile
  obtain ⟨bf,fresh,_,constructed1,_,_,_,clear1,_⟩ := construct_spec kept1 (by rw [view1]; exact state.stored)
    ⟨HeapFile.fresh 0 0,none,0,nullRid⟩
  have afresh : construct b'.openFile.2 ⟨HeapFile.fresh 0 0,none,0,nullRid⟩ = .ok (.ok,fresh,bf) := by
    rw [opened]
    exact constructed1
  have both := always b _ heap recCnt owned s ⟨HeapFile.fresh 0 0,none,0,nullRid⟩ (.inl ⟨c,scanning,whole⟩)
    s' b' fresh bf ended afresh 1
  have unfiltered : {fresh with filter := s.filter} = fresh := by rw [clear,← clear1]
  rw [unfiltered] at both
  have ran : (do
      let (_,s,b) ← construct emptiedFile ⟨HeapFile.fresh 0 0,none,0,nullRid⟩
      let (_,s,b) := endScan b s
      let (_,fresh,bf) ← construct b.openFile.2 ⟨HeapFile.fresh 0 0,none,0,nullRid⟩
      return (← listed 1 b s,← listed 1 bf fresh) : Except Abort
        (List (Except Status RID) × List (Except Status RID))).toOption.map
        (fun r => (r.1.map Except.toOption,r.2.map Except.toOption)) = some ([none],[some ⟨3,0⟩]) := by decide +kernel
  rw [constructed,ok_bind] at ran
  dsimp only at ran
  rw [ended] at ran
  dsimp only at ran
  rw [afresh,ok_bind] at ran
  dsimp only at ran
  rw [both] at ran
  cases found : listed 1 bf fresh with
  | error error =>
    rw [found] at ran
    cases ran
  | ok results =>
    rw [found] at ran
    obtain ⟨one,two⟩ := Prod.mk.inj (Option.some.inj ran)
    have same := one.symm.trans two
    cases same

end rescan
end HeapFileScan
end Minirel
