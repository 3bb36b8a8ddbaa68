import Minirel.HeapOpen
import Mathlib.Data.List.Perm.Subperm

namespace Minirel
open ByteMemory SlotDirectory Page Heap

-- Where a scan stands: every record below slot `next` of the page, and every page before it, is
-- behind the scan.
structure Cursor where
  before : Heap
  pageNo : Int
  slots : Slots
  after : Heap
  next : Nat

namespace Cursor

def heap (c : Cursor) : Heap := c.before ++ (c.pageNo,c.slots)::c.after
def rest (c : Cursor) : List Entry := (liveFrom c.slots c.next).map fun e => (⟨c.pageNo,e.1⟩,e.2)
def remaining (c : Cursor) : List Entry := c.rest ++ records c.after

-- The record the scan has just returned.
def Current (c : Cursor) (e : Entry) : Prop := ∃ i : Nat, e.1 = ⟨c.pageNo,i⟩ ∧ c.next = i + 1 ∧
    lookup c.slots i = some e.2

end Cursor

namespace HeapFileScan

-- What holds while a scan over a heap file is under way; k has the pins of everybody else.
structure Scanning (k : Pool.Books) (recCnt : Int) (b : Pool) (s : HeapFileScan) (c : Cursor) : Prop where
  kept : b.Keeps ((k.hold k.first s.hdrDirtyFlag).hold c.pageNo s.curDirtyFlag)
  stored : Stored b.view k.first c.heap recCnt
  headerPage : s.headerPage = some k.first
  headerPageNo : s.headerPageNo = k.first
  curPage : s.curPage = some c.pageNo
  curPageNo : s.curPageNo = c.pageNo
  slot : s.curRec.slotNo = c.next - 1

variable {k : Pool.Books} {recCnt : Int} {b : Pool} {s : HeapFileScan} {c : Cursor}

-- A move of the cursor leaves the file and the rest of the scan alone.
structure Moves (k : Pool.Books) (recCnt : Int) (b : Pool) (s : HeapFileScan) (c : Cursor) (b' : Pool)
    (s' : HeapFileScan)
    (c' : Cursor) : Prop where
  scanning : Scanning k recCnt b' s' c'
  heap : c'.heap = c.heap
  filter : s'.filter = s.filter
  hdrDirty : s'.hdrDirtyFlag = s.hdrDirtyFlag
  view : b'.view = b.view

theorem Scanning.still (scanning : Scanning k recCnt b s c) : Moves k recCnt b s c b s c := ⟨scanning,rfl,rfl,rfl,rfl⟩

theorem Moves.trans {b' b'' : Pool} {s' s'' : HeapFileScan} {c' c'' : Cursor} (one : Moves k recCnt b s c b' s' c')
    (two : Moves k recCnt b' s' c' b'' s'' c'') : Moves k recCnt b s c b'' s'' c'' :=
  ⟨two.scanning,two.heap.trans one.heap,two.filter.trans one.filter,two.hdrDirty.trans one.hdrDirty,
    two.view.trans one.view⟩

theorem Scanning.page (scanning : Scanning k recCnt b s c) :
    ∃ p, b.view c.pageNo = some p ∧ b.deref s.curPage = .ok p ∧ Represents p c.pageNo c.slots ∧
      p.nextPage = headNo c.after (-1) := by
  obtain ⟨p,_,seen,held,next⟩ := scanning.stored.page
  exact ⟨p,seen,by rw [scanning.curPage]; exact scanning.kept.deref seen,held,next⟩

theorem Scanning.matchRec_congr {s' : HeapFileScan} (same : s'.filter = s.filter) (rec : Record) :
    s'.matchRec rec = s.matchRec rec := by
  rw [matchRec,matchRec,same]

-- What one step of the scan loop does: it stands on the next record, or the file has no more.
def Arrives (k : Pool.Books) (recCnt : Int) (b : Pool) (s : HeapFileScan) (c : Cursor)
    (result : Except Abort (Except Status Unit × HeapFileScan × Pool)) : Prop :=
  ∃ b' s' c', Moves k recCnt b s c b' s' c' ∧
    ((result = .ok (.error .fileEof,s',b') ∧ c.remaining = [] ∧ c'.remaining = []) ∨
      ∃ bytes, result = .ok (.ok (),s',b') ∧ c.remaining = (s'.curRec,bytes)::c'.remaining ∧
        c'.Current (s'.curRec,bytes))

theorem Arrives.after {b' : Pool} {s' : HeapFileScan} {c' : Cursor}
    {result : Except Abort (Except Status Unit × HeapFileScan × Pool)}
    (moves : Moves k recCnt b s c b' s' c') (same : c.remaining = c'.remaining)
    (arrives : Arrives k recCnt b' s' c' result) :
    Arrives k recCnt b s c result := by
  obtain ⟨b'',s'',c'',further,found⟩ := arrives
  exact ⟨b'',s'',c'',moves.trans further,by rw [same]; exact found⟩

theorem nextPages_spec (owned : k.Owned) (turns : Nat) (scanning : Scanning k recCnt b s c) (exhausted : c.rest = [])
    (enough : c.after.length < turns) : Arrives k recCnt b s c (nextPages turns b s) := by
  induction turns generalizing b s c with
  | zero => cases enough
  | succ turns ih =>
    obtain ⟨p,seen,read,held,next⟩ := scanning.page
    have remaining : c.remaining = records c.after := by rw [Cursor.remaining,exhausted,List.nil_append]
    rw [nextPages,read,ok_bind]
    obtain ⟨before,n,d,after,at_slot⟩ := c
    cases after with
    | nil =>
      refine ⟨b,s,_,scanning.still,.inl ⟨?_,remaining,remaining⟩⟩
      simp only [getNextPage,next,headNo,if_true]
      rfl
    | cons page after =>
      obtain ⟨n',d'⟩ := page
      dsimp only [headNo] at next
      have stored := scanning.stored
      have split : (⟨before,n,d,(n',d')::after,at_slot⟩ : Cursor).heap = (before ++ [(n,d)]) ++ (n',d')::after := by
        simp [Cursor.heap]
      rw [split] at stored
      obtain ⟨q,low,seen',held',next'⟩ := stored.page
      obtain ⟨b1,unpinned,kept1,view1⟩ := scanning.kept.unPinPage (owned.hold _ _) s.curDirtyFlag id
      have seen1 : b1.view n' = some q := by rw [view1]; exact seen'
      obtain ⟨b2,read2,kept2,view2⟩ := kept1.readPage seen1
      have seen2 : b2.view n' = some q := by rw [view2,view1]; exact seen'
      have read3 := kept2.deref seen2
      have forward : ¬ n' = -1 := by omega
      simp only [getNextPage,next,forward,if_false,scanning.curPageNo,unpinned,read2,read3,pure_ok,ok_bind,
        held'.firstRecord_spec]
      have stands : ∀ (r : RID) (i : Nat), r.slotNo = (i : Int) - 1 →
          Scanning k recCnt b2 {s with curPage := some n', curPageNo := n', curDirtyFlag := false, curRec := r}
            ⟨before ++ [(n,d)],n',d',after,i⟩ := fun r i slot =>
        ⟨kept2,by rw [view2,view1]; exact stored,scanning.headerPage,scanning.headerPageNo,rfl,rfl,slot⟩
      have moves : ∀ (r : RID) (i : Nat), r.slotNo = (i : Int) - 1 →
        Moves k recCnt b s ⟨before,n,d,(n',d')::after,at_slot⟩ b2
          {s with curPage := some n', curPageNo := n', curDirtyFlag := false, curRec := r}
          ⟨before ++ [(n,d)],n',d',after,i⟩ :=
        fun r i slot => ⟨stands r i slot,split.symm,rfl,rfl,view2.trans view1⟩
      cases on_page : entries d' with
      | nil =>
        dsimp only
        have none_left : ∀ i, liveFrom d' i = [] := fun i => by rw [liveFrom,on_page]; rfl
        refine .after (moves s.curRec at_slot scanning.slot) ?_ (ih (stands _ _ scanning.slot) ?_ ?_)
        · rw [remaining]
          simp [Cursor.remaining,Cursor.rest,none_left,pageRecords,on_page]
        · simp [Cursor.rest,none_left]
        · simpa using enough
      | cons first rest =>
        obtain ⟨j,bytes⟩ := first
        dsimp only
        rw [← liveFrom_zero] at on_page
        obtain ⟨_,found,rfl⟩ := liveFrom_step on_page
        rw [liveFrom_zero] at on_page
        refine ⟨b2,_,_,moves ⟨n',j⟩ (j+1) (by simp),.inr ⟨bytes,rfl,?_,j,rfl,rfl,found⟩⟩
        rw [remaining]
        simp [Cursor.remaining,Cursor.rest,pageRecords,on_page]

theorem few_pages {heap : Heap} {stop : Int} (kept : b.Keeps k) (chain : Chain b.view heap stop)
    (nodup : (pageNos heap).Nodup) :
    heap.length < b.file.length := by
  have inside : ∀ n ∈ pageNos heap, 1 ≤ n ∧ n < b.file.length := by
    intro n member
    obtain ⟨⟨m,d⟩,here,rfl⟩ := List.mem_map.mp member
    obtain ⟨before,after,rfl⟩ := List.append_of_mem here
    obtain ⟨p,low,seen,_⟩ := chain.at
    obtain ⟨_,there⟩ := Option.isSome_iff_exists.mp (kept.in_file seen).2
    exact ⟨low,(File.at_some_bound there).2⟩
  have covered : pageNos heap ⊆ (List.range (b.file.length - 1)).map fun i : Nat => (i : Int) + 1 := by
    intro n member
    have := inside n member
    exact List.mem_map.mpr ⟨(n-1).toNat,List.mem_range.mpr (by omega),by omega⟩
  have shorter := (nodup.subperm covered).length_le
  simp only [pageNos,List.length_map,List.length_range] at shorter
  have := kept.counted.present
  omega

theorem few_records {view : Int → Option Page} {heap : Heap} {stop : Int} (chain : Chain view heap stop) :
    (records heap).length ≤ 251 * heap.length := by
  induction heap with
  | nil => simp
  | cons page rest ih =>
    obtain ⟨n,d⟩ := page
    obtain ⟨⟨p,_,_,held,_⟩,tail⟩ := chain
    have slots := held.few_slots
    have live := length_entries_le d
    have later := ih tail
    simp only [records_cons,List.length_append,pageRecords,List.length_map,List.length_cons]
    omega

theorem Scanning.turns (scanning : Scanning k recCnt b s c) : c.after.length < pageTurns b ∧
    c.remaining.length < recordTurns b := by
  have pages := few_pages scanning.kept scanning.stored.chain scanning.stored.nodup
  have all := few_records scanning.stored.chain
  have some_left : c.remaining.length ≤ (records c.heap).length := by
    have here : c.rest.length ≤ (pageRecords c.pageNo c.slots).length := by
      rw [Cursor.rest,pageRecords,List.length_map,List.length_map]
      exact List.length_filter_le ..
    simp only [Cursor.remaining,Cursor.heap,records_append,records_cons,List.length_append]
    omega
  have parts : c.heap.length = c.before.length + (c.after.length + 1) := by simp [Cursor.heap]
  have size : recordTurns b = 1024 * b.file.length := rfl
  have turns : pageTurns b = b.file.length := rfl
  omega

theorem advance_spec (owned : k.Owned) (scanning : Scanning k recCnt b s c) : Arrives k recCnt b s c (advance b s) := by
  obtain ⟨p,seen,read,held,next⟩ := scanning.page
  have at_slot : s.curRec = ⟨s.curRec.pageNo,(c.next : Int) - 1⟩ := by rw [← scanning.slot]
  have spec := held.nextRecord_spec s.curRec.pageNo c.next
  rw [← at_slot] at spec
  rw [advance,read,ok_bind,spec]
  cases left : liveFrom c.slots c.next with
  | nil =>
    exact nextPages_spec owned _ scanning (by rw [Cursor.rest,left]; rfl) scanning.turns.1
  | cons first rest =>
    obtain ⟨j,bytes⟩ := first
    obtain ⟨_,found,rfl⟩ := liveFrom_step left
    refine ⟨b,{s with curRec := ⟨c.pageNo,j⟩},{c with next := j+1},
      ⟨⟨scanning.kept,scanning.stored,scanning.headerPage,scanning.headerPageNo,
      scanning.curPage,scanning.curPageNo,by simp⟩,rfl,rfl,rfl,rfl⟩,.inr ⟨bytes,rfl,?_,j,rfl,rfl,found⟩⟩
    simp [Cursor.remaining,Cursor.rest,left]

-- The outcome of scanNext: the next record that matches, or FILEEOF when none is left.
inductive Finds (k : Pool.Books) (recCnt : Int) (b : Pool) (s : HeapFileScan) (c : Cursor) (b' : Pool)
    (s' : HeapFileScan)
    (c' : Cursor) : Except Abort (Except Status RID × HeapFileScan × Pool) → Prop where
  | record (skipped : List Entry) (bytes : List UInt8) (remaining : c.remaining =
      skipped ++ (s'.curRec,bytes)::c'.remaining)
      (passed : ∀ e ∈ skipped, s.matchRec (.of e.2) = false) (accepted : s.matchRec (.of bytes) = true)
      (current : c'.Current (s'.curRec,bytes)) : Finds k recCnt b s c b' s' c' (.ok (.ok s'.curRec,s',b'))
  | eof (passed : ∀ e ∈ c.remaining, s.matchRec (.of e.2) = false) (done : c'.remaining = []) :
      Finds k recCnt b s c b' s' c' (.ok (.error .fileEof,s',b'))

-- Of the records to come those that match: none is passed over, and the one found is the first.
theorem filter_passed {l : List Entry} (passed : ∀ e ∈ l, s.matchRec (.of e.2) = false) :
    (l.filter fun e => s.matchRec (.of e.2)) = [] := by
  apply List.filter_eq_nil_iff.mpr
  intro e member
  rw [passed e member]
  exact Bool.false_ne_true

theorem filter_next {s' : HeapFileScan} {l l' skipped : List Entry} {e : Entry} (remaining : l = skipped ++ e::l')
    (passed : ∀ e ∈ skipped, s.matchRec (.of e.2) = false) (accepted : s.matchRec (.of e.2) = true)
    (same : s'.filter = s.filter) :
    (l.filter fun e => s.matchRec (.of e.2)) = e::l'.filter fun e => s'.matchRec (.of e.2) := by
  rw [remaining,List.filter_append,filter_passed passed,List.nil_append,List.filter_cons,if_pos accepted]
  congr 1
  apply List.filter_congr
  intro e' _
  rw [Scanning.matchRec_congr same]

theorem nextRecords_spec (owned : k.Owned) (turns : Nat) (scanning : Scanning k recCnt b s c)
    (enough : c.remaining.length < turns) :
    ∃ b' s' c', Moves k recCnt b s c b' s' c' ∧ Finds k recCnt b s c b' s' c' (nextRecords turns b s) := by
  induction turns generalizing b s c with
  | zero => cases enough
  | succ turns ih =>
    obtain ⟨b1,s1,c1,moves,arrived⟩ := advance_spec owned scanning
    rcases arrived with ⟨result,none_left,done⟩ | ⟨bytes,result,remaining,current⟩
    · refine ⟨b1,s1,c1,moves,?_⟩
      rw [nextRecords,result,ok_bind]
      exact .eof (by rw [none_left]; simp) done
    · obtain ⟨i,rid,next,found⟩ := current
      obtain ⟨p,seen,read,held,_⟩ := moves.scanning.page
      have got : p.getRecord s1.curRec = .ok (.of bytes) := by
        dsimp only at rid
        rw [rid]
        exact held.getRecord_live found (moves.scanning.stored.nonempty found)
      rw [nextRecords,result,ok_bind]
      simp only [read,ok_bind,got,Scanning.matchRec_congr moves.filter]
      by_cases accepted : s.matchRec (.of bytes) = true
      · rw [if_pos accepted]
        exact ⟨b1,s1,c1,moves,.record [] bytes remaining (by simp) accepted ⟨i,rid,next,found⟩⟩
      · rw [if_neg accepted]
        have shorter : c1.remaining.length < turns := by
          rw [remaining,List.length_cons] at enough
          omega
        obtain ⟨b2,s2,c2,further,finds⟩ := ih moves.scanning shorter
        refine ⟨b2,s2,c2,moves.trans further,?_⟩
        have pass : ∀ e, s1.matchRec e = s.matchRec e := Scanning.matchRec_congr moves.filter
        have refused : s.matchRec (.of bytes) = false := by simpa using accepted
        generalize nextRecords turns b1 s1 = outcome at finds ⊢
        cases finds with
        | record skipped bytes' rest passed accepted current =>
          refine .record ((s1.curRec,bytes)::skipped) bytes' (by rw [remaining,rest]; rfl) ?_
            ((pass _).symm.trans accepted) current
          intro e member
          rcases List.mem_cons.mp member with rfl | later
          · exact refused
          · exact (pass _).symm.trans (passed e later)
        | eof passed done =>
          refine .eof ?_ done
          rw [remaining]
          intro e member
          rcases List.mem_cons.mp member with rfl | later
          · exact refused
          · exact (pass _).symm.trans (passed e later)

theorem scanNext_spec (owned : k.Owned) (scanning : Scanning k recCnt b s c) :
    ∃ b' s' c', Moves k recCnt b s c b' s' c' ∧ Finds k recCnt b s c b' s' c' (scanNext b s) := by
  obtain ⟨p,low,_⟩ := scanning.stored.page
  have forward : ¬ s.curPageNo < 0 := by rw [scanning.curPageNo]; omega
  have pinned : ¬ s.curPage = none := by rw [scanning.curPage]; exact Option.some_ne_none _
  rw [scanNext,if_neg forward,if_neg pinned]
  exact nextRecords_spec owned _ scanning scanning.turns.2

theorem getRecord_spec {e : Entry} (scanning : Scanning k recCnt b s c) (current : c.Current e) (rid : s.curRec = e.1) :
    getRecord b s = .ok (.ok (.of e.2)) := by
  obtain ⟨p,seen,read,held,_⟩ := scanning.page
  obtain ⟨i,here,_,found⟩ := current
  rw [getRecord,read,ok_bind,rid,here,held.getRecord_live found (scanning.stored.nonempty found)]
  rfl

-- The two pages that deleteRecord changes, given what it makes of the data page.
theorem Scanning.deleteRecord_pages (scanning : Scanning k recCnt b s c) {p q : Page} {status : Status} {d' : Slots}
    (seen : b.view c.pageNo = some p) (deleted : p.deleteRecord s.curRec = (status,q)) (held : Represents q c.pageNo d')
    (next : q.nextPage = headNo c.after (-1)) (full : ∀ e ∈ entries d', e.2 ≠ []) :
    ∃ b', deleteRecord b s = .ok (status,{s with curDirtyFlag := true, hdrDirtyFlag := true},b') ∧
      Scanning k (Int.bmod (recCnt - 1) (256 ^ 4)) b' {s with curDirtyFlag := true, hdrDirtyFlag := true}
        {c with slots := d'} := by
  obtain ⟨header,at_header,_,_,_,count⟩ := scanning.stored.header
  have other := scanning.stored.other
  have read := scanning.kept.deref seen
  obtain ⟨kept1,view1⟩ := scanning.kept.assign q
  have at_header1 : (b.assign (some c.pageNo) q).view k.first = some header := by
    rw [view1,if_neg other]; exact at_header
  rw [Pool.Books.hold_comm] at kept1
  have read1 := kept1.deref at_header1
  obtain ⟨kept2,view2⟩ := kept1.assign (FileHdrPage.setRecCnt header (FileHdrPage.recCnt header - 1))
  rw [Pool.Books.hold_comm] at kept2
  refine ⟨_,by simp only [deleteRecord,read,ok_bind,deleted,scanning.curPage,scanning.headerPage,read1]; rfl,
    kept2,?_,scanning.headerPage,scanning.headerPageNo,scanning.curPage,scanning.curPageNo,scanning.slot⟩
  refine scanning.stored.change q at_header (by rw [view2,if_pos rfl]) ?_ ?_ ⟨?_,?_,?_⟩ ?_ held next full
  · rw [view2,if_neg (Ne.symm other),view1,if_pos rfl]
  · intro m off_header off_page
    rw [view2,if_neg off_header,view1,if_neg off_page]
  · exact word_setWord_apart (by omega)
  · exact word_setWord_apart (by omega)
  · exact word_setWord_apart (by omega)
  · rw [← count]
    exact word_setWord (by omega) (by omega)

-- The page that a RID names plays no part: the record goes that has the slot on the current page.
theorem deleteRecord_at {i : Nat} {bytes : List UInt8} (scanning : Scanning k recCnt b s c)
    (at_slot : s.curRec.slotNo = i)
    (found : lookup c.slots i = some bytes) :
    ∃ b', deleteRecord b s = .ok (.ok,{s with curDirtyFlag := true, hdrDirtyFlag := true},b') ∧
      Scanning k (Int.bmod (recCnt - 1) (256 ^ 4)) b' {s with curDirtyFlag := true, hdrDirtyFlag := true}
        {c with slots := remove c.slots i} := by
  obtain ⟨p,seen,_,held,next⟩ := scanning.page
  obtain ⟨q,deleted,held',next'⟩ := held.delete_live s.curRec.pageNo found (scanning.stored.nonempty found)
  have rid : s.curRec = ⟨s.curRec.pageNo,i⟩ := by rw [← at_slot]
  have full : ∀ x ∈ entries (remove c.slots i), x.2 ≠ [] := by
    rintro ⟨j,v⟩ member
    rw [mem_entries,lookup_remove] at member
    split at member
    · cases member
    · exact scanning.stored.nonempty member
  exact scanning.deleteRecord_pages seen (by rw [rid]; exact deleted) held' (next'.trans next) full

theorem deleteRecord_live {e : Entry} (scanning : Scanning k recCnt b s c) (current : c.Current e)
    (rid : s.curRec = e.1) :
    ∃ b' s' c', deleteRecord b s = .ok (.ok,s',b') ∧ Scanning k (Int.bmod (recCnt - 1) (256 ^ 4)) b' s' c' ∧
      s'.filter = s.filter ∧
      s'.curRec = s.curRec ∧ c'.remaining = c.remaining ∧
        records c'.heap = (records c.heap).filter (fun x => x.1 ≠ e.1) ∧
      ∃ i, c'.next = i + 1 ∧ lookup c'.slots i = none := by
  obtain ⟨rid',bytes⟩ := e
  obtain ⟨i,rfl,at_slot,found⟩ := current
  obtain ⟨b',result,scanning'⟩ := deleteRecord_at scanning (by rw [rid]) found
  refine ⟨b',_,_,result,scanning',rfl,rfl,?_,records_remove scanning.stored.nodup i,i,at_slot,?_⟩
  · simp only [Cursor.remaining,Cursor.rest,liveFrom_remove c.slots i c.next (by omega)]
  · rw [lookup_remove,if_pos rfl]

-- Deleting the same record again is refused by the page, and counted all the same.
theorem deleteRecord_dead {i : Nat} (scanning : Scanning k recCnt b s c) (at_slot : c.next = i + 1)
    (gone : lookup c.slots i = none) :
    ∃ b' s', deleteRecord b s = .ok (.invalidSlotNo,s',b') ∧ Scanning k (Int.bmod (recCnt - 1) (256 ^ 4)) b' s' c ∧
      s'.filter = s.filter ∧ s'.curRec = s.curRec := by
  obtain ⟨p,seen,_,held,next⟩ := scanning.page
  have rid : s.curRec = ⟨s.curRec.pageNo,i⟩ := by
    have slot := scanning.slot
    rw [at_slot] at slot
    rw [show (i : Int) = s.curRec.slotNo by omega]
  have deleted := held.delete_dead s.curRec.pageNo fun bytes found => by rw [gone] at found; cases found
  have full : ∀ x ∈ entries c.slots, x.2 ≠ [] := by
    rintro ⟨j,v⟩ member
    exact scanning.stored.nonempty (mem_entries.mp member)
  obtain ⟨b',result,scanning'⟩ := scanning.deleteRecord_pages seen (by rw [rid]; exact deleted) held next full
  exact ⟨b',_,result,scanning',rfl,rfl⟩

theorem construct_spec {heap : Heap} (kept : b.Keeps k) (stored : Stored b.view k.first heap recCnt)
    (s : HeapFileScan) :
    ∃ b' s' c, construct b s = .ok (.ok,s',b') ∧ Scanning k recCnt b' s' c ∧ c.heap = heap ∧
      c.remaining = records heap ∧
      s'.filter = none ∧ b'.view = b.view := by
  obtain ⟨n,d,rest,b',rfl,opened,kept',view⟩ := HeapFile.construct_spec kept stored s.toHeapFile
  refine ⟨b',_,⟨[],n,d,rest,0⟩,by rw [construct,opened]; rfl,⟨kept',
    by rw [view]; exact stored,rfl,rfl,rfl,rfl,rfl⟩,rfl,?_,rfl,view⟩
  simp [Cursor.remaining,Cursor.rest,liveFrom_zero,pageRecords]

theorem Scanning.filtered (scanning : Scanning k recCnt b s c) (filter : Option Condition) :
    Scanning k recCnt b {s with filter := filter} c :=
  ⟨scanning.kept,scanning.stored,scanning.headerPage,scanning.headerPageNo,scanning.curPage,scanning.curPageNo,
    scanning.slot⟩

theorem endScan_spec (owned : k.Owned) (scanning : Scanning k recCnt b s c) :
    ∃ b' s', endScan b s = (.ok,s',b') ∧ b'.Keeps (k.hold k.first s'.hdrDirtyFlag) ∧ s'.headerPageNo = k.first ∧
      s'.curPage = none ∧ b'.view = b.view := by
  obtain ⟨b',unpinned,kept',view⟩ := scanning.kept.unPinPage (owned.hold _ _) s.curDirtyFlag id
  exact ⟨b',{s with curPage := none, curPageNo := 0, curDirtyFlag := false},
    by simp only [endScan,scanning.curPage,scanning.curPageNo,unpinned],kept',scanning.headerPageNo,rfl,view⟩

theorem destroy_spec (owned : k.Owned) (scanning : Scanning k.opened recCnt b s c) :
    (destroy b s).Keeps k ∧ (destroy b s).view = b.view := by
  have owned' : k.opened.Owned := owned
  obtain ⟨b1,s1,ended,kept1,header,cur,view1⟩ := endScan_spec owned' scanning
  obtain ⟨kept2,view2⟩ := HeapFile.destroy_unpinned owned header cur kept1
  rw [destroy,ended]
  exact ⟨kept2,view2.trans view1⟩

end HeapFileScan
end Minirel
