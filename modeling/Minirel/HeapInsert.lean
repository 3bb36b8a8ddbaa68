import Minirel.HeapOpen

namespace Minirel
open ByteMemory SlotDirectory Page Heap

namespace Heap

variable {before : Heap} {n : Int} {d : Slots}

theorem pageRecords_put (n : Int) (d : Slots) (bytes : List UInt8) :
    (pageRecords n (put d bytes)).Perm ((⟨n,firstFree d⟩,bytes)::pageRecords n d) := by
  obtain ⟨left,right,old,new,_⟩ := entries_put d bytes
  rw [pageRecords,pageRecords,old,new,List.map_append,List.map_append,List.map_cons]
  exact List.perm_middle

theorem records_put_at (before after : Heap) (n : Int) (d : Slots) (bytes : List UInt8) :
    (records (before ++ (n,put d bytes)::after)).Perm ((⟨n,firstFree d⟩,bytes)::records (before ++ (n,d)::after)) := by
  simp only [records_append,records_cons]
  exact (((pageRecords_put n d bytes).append_right _).append_left _).trans List.perm_middle

theorem records_put (before : Heap) (n : Int) (d : Slots) (bytes : List UInt8) :
    (records (before ++ [(n,put d bytes)])).Perm ((⟨n,firstFree d⟩,bytes)::records (before ++ [(n,d)])) :=
  records_put_at before [] n d bytes

theorem records_linked (heap : Heap) (m : Int) : records (heap ++ [(m,[])]) = records heap := by
  rw [records_append,show records [(m,[])] = [] from rfl,List.append_nil]

theorem full_put {bytes : List UInt8} (full : ∀ e ∈ entries d, e.2 ≠ []) (positive : bytes ≠ []) :
    ∀ e ∈ entries (put d bytes), e.2 ≠ [] := by
  rintro ⟨i,v⟩ member
  rw [mem_entries,lookup_put] at member
  split at member
  · cases member; exact positive
  · exact full (i,v) (mem_entries.mpr member)

theorem Stored.full_page {view : Int → Option Page} {hdr recCnt : Int} {after : Heap}
    (stored : Stored view hdr (before ++ (n,d)::after) recCnt) : ∀ e ∈ entries d, e.2 ≠ [] := by
  rintro ⟨i,v⟩ member
  exact stored.nonempty (mem_entries.mp member)

-- Nothing comes behind the page that the header page names as the last.
theorem Stored.at_end {view : Int → Option Page} {hdr recCnt : Int} {after : Heap} {header : Page}
    (stored : Stored view hdr (before ++ (n,d)::after) recCnt) (read : view hdr = some header)
    (at_end : n = FileHdrPage.lastPage header) : after = [] := by
  obtain ⟨page,seen,_,last,_⟩ := stored.header
  rw [read] at seen
  cases seen
  rcases List.eq_nil_or_concat after with none | ⟨rest,⟨m,e⟩,split⟩
  · exact none
  · have nodup := stored.nodup
    rw [split,List.concat_eq_append,← List.cons_append,← List.append_assoc,lastNo_concat,← at_end] at last
    rw [split,pageNos_append,pageNos_cons,List.concat_eq_append,pageNos_append,last] at nodup
    simp [List.nodup_append] at nodup

-- An empty page linked behind the last one.
theorem Stored.link {view view' : Int → Option Page} {hdr recCnt m : Int}
    (stored : Stored view hdr (before ++ [(n,d)]) recCnt) {header : Page} (header' page next : Page)
    (fresh : view m = none)
    (read : view hdr = some header) (header_view : view' hdr = some header') (page_view : view' n = some page)
    (next_view : view' m = some next) (low : 1 ≤ m) (others : ∀ i p, i ≠ hdr → i ≠ n → view i = some p →
      view' i = some p)
    (first : FileHdrPage.firstPage header' = FileHdrPage.firstPage header) (last : FileHdrPage.lastPage header' = m)
    (pages : FileHdrPage.pageCnt header' = Int.bmod (FileHdrPage.pageCnt header + 1) (256 ^ 4))
    (count : FileHdrPage.recCnt header' = FileHdrPage.recCnt header) (held : Represents page n d)
    (linked : page.nextPage = m)
    (held_next : Represents next m []) (stop : next.nextPage = -1) :
    Stored view' hdr ((before ++ [(n,d)]) ++ [(m,[])]) recCnt := by
  obtain ⟨old,seen,first_old,last_old,pages_old,count_old⟩ := stored.header
  rw [read] at seen
  cases seen
  have nodup := stored.nodup
  have apart := stored.apart
  have absent : ∀ i ∈ pageNos (before ++ [(n,d)]), i ≠ m := by
    rintro i member rfl
    obtain ⟨⟨_,e⟩,inside,rfl⟩ := List.mem_map.mp member
    obtain ⟨l,r,split⟩ := List.append_of_mem inside
    have chain := stored.chain
    rw [split] at chain
    obtain ⟨p,_,there,_⟩ := chain.at
    rw [fresh] at there
    cases there
  obtain ⟨left,⟨p,low_n,_,_,_⟩,_⟩ := (chain_append before _).mp stored.chain
  have moved : ∀ {l : Heap} {t : Int}, Chain view l t → (∀ i ∈ pageNos l, i ≠ hdr ∧ i ≠ n) → Chain view' l t := by
    intro l t chain off
    induction l with
    | nil => trivial
    | cons first rest ih =>
      obtain ⟨⟨q,low_q,seen_q,rest_q⟩,tail⟩ := chain
      obtain ⟨one,two⟩ := off first.1 (List.mem_cons_self ..)
      exact ⟨⟨q,low_q,others _ q one two seen_q,rest_q⟩,ih tail fun i member => off i (List.mem_cons_of_mem _ member)⟩
  constructor
  case header =>
    refine ⟨header',header_view,?_,?_,?_,count.trans count_old⟩
    · rw [first,first_old,headNo_append,headNo_append,headNo_append]; rfl
    · rw [last,lastNo_concat]
    · have longer : ((before ++ [(n,d)]) ++ [(m,[])]).length = (before ++ [(n,d)]).length + 1 := List.length_append
      rw [pages,pages_old,Int.bmod_add_bmod,longer,Nat.cast_add,Nat.cast_one]
  case chain =>
    refine (chain_append _ _).mpr ⟨(chain_append _ _).mpr ⟨?_,⟨page,low_n,page_view,held,linked⟩,trivial⟩,
      ⟨next,low,next_view,held_next,stop⟩,trivial⟩
    refine moved left fun i member => ⟨?_,?_⟩
    · rintro rfl; exact apart (by rw [pageNos_append]; exact List.mem_append_left _ member)
    · rw [pageNos_append] at nodup
      exact fun same => (List.nodup_append.mp nodup).2.2 i member n (List.mem_cons_self ..) same
  case apart =>
    rw [pageNos_append,List.mem_append,not_or]
    refine ⟨apart,fun member => ?_⟩
    rw [pageNos_cons,List.mem_cons] at member
    rcases member with rfl | none
    · rw [fresh] at read; cases read
    · cases none
  case nodup =>
    rw [pageNos_append,List.nodup_append]
    refine ⟨nodup,by simp [pageNos],fun i member j new => ?_⟩
    rw [pageNos_cons,List.mem_cons] at new
    rcases new with rfl | none
    · exact absent i member
    · cases none
  case some_page => simp
  case full =>
    intro e member
    rw [records_append,List.mem_append] at member
    rcases member with earlier | here
    · exact stored.full e earlier
    · simp [pageRecords,entries,entriesFrom] at here

end Heap

namespace InsertFileScan

-- The page at the end of the chain is pinned, and will be unpinned as dirty in any case.
structure Inserting (k : Pool.Books) (recCnt : Int) (b : Pool) (s : InsertFileScan) (before : Heap) (n : Int)
    (d : Slots) : Prop where
  kept : b.Keeps ((k.hold k.first s.hdrDirtyFlag).hold n true)
  stored : Stored b.view k.first (before ++ [(n,d)]) recCnt
  headerPage : s.headerPage = some k.first
  headerPageNo : s.headerPageNo = k.first
  curPage : s.curPage = some n
  curPageNo : s.curPageNo = n

variable {k : Pool.Books} {recCnt : Int} {b : Pool} {s : InsertFileScan} {before : Heap} {n : Int} {d : Slots}

theorem construct_spec {heap : Heap} (owned : k.Owned) (kept : b.Keeps k) (stored : Stored b.view k.first heap recCnt)
    (s : InsertFileScan) :
    ∃ b' s' before n d, construct b s = .ok (.ok,s',b') ∧ heap = before ++ [(n,d)] ∧
      Inserting k recCnt b' s' before n d ∧
      b'.view = b.view := by
  obtain ⟨n,d,rest,b1,rfl,opened,kept1,view1⟩ := HeapFile.construct_spec kept stored s.toHeapFile
  obtain ⟨before,⟨m,e⟩,same⟩ := List.eq_nil_or_concat ((n,d)::rest) |>.resolve_left (List.cons_ne_nil _ _)
  obtain ⟨header,at_header,_,last,_⟩ := stored.header
  rw [List.concat_eq_append] at same
  rw [same] at stored last ⊢
  rw [lastNo_concat] at last
  rw [Pool.Books.hold_comm] at kept1
  have at_header1 : b1.view k.first = some header := by rw [view1]; exact at_header
  have read := kept1.deref at_header1
  rw [Pool.Books.hold_comm] at kept1
  have loosen : ∀ {b' : Pool} {i : Int}, b'.Keeps ((k.hold k.first false).hold i false) →
      b'.Keeps ((k.hold k.first false).hold i true) :=
    fun kept' => kept'.weaken ⟨rfl,rfl,rfl⟩ fun j marked => marked.elim (fun h => absurd h.1 Bool.false_ne_true) .inr
  by_cases only : n = m
  · subst only
    refine ⟨b1,⟨HeapFile.fresh k.first n⟩,before,n,e,?_,rfl,
      ⟨loosen kept1,by rw [view1]; exact stored,rfl,rfl,rfl,rfl⟩,view1⟩
    simp only [construct,opened,ok_bind,HeapFile.fresh,read,last]
    simp
    rfl
  · obtain ⟨p,_,seen,_⟩ := stored.page
    obtain ⟨b2,unpinned,kept2,view2⟩ := kept1.unPinPage (owned.hold _ _) false id
    have seen2 : b2.view m = some p := by rw [view2,view1]; exact seen
    obtain ⟨b3,read3,kept3,view3⟩ := kept2.readPage seen2
    have view : b3.view = b.view := view3.trans (view2.trans view1)
    refine ⟨b3,⟨HeapFile.fresh k.first m⟩,before,m,e,?_,rfl,
      ⟨loosen kept3,by rw [view]; exact stored,rfl,rfl,rfl,rfl⟩,view⟩
    simp only [construct,opened,ok_bind,HeapFile.fresh,read,last]
    simp [only,unpinned,read3]
    rfl

-- An object that stands on any page of the chain and will unpin it as dirty.
structure Standing (k : Pool.Books) (recCnt : Int) (b : Pool) (s : InsertFileScan) (heap : Heap) (n : Int) : Prop where
  kept : b.Keeps ((k.hold k.first s.hdrDirtyFlag).hold n true)
  stored : Stored b.view k.first heap recCnt
  member : n ∈ pageNos heap
  headerPage : s.headerPage = some k.first
  headerPageNo : s.headerPageNo = k.first
  curPage : s.curPage = some n
  curPageNo : s.curPageNo = n

theorem Inserting.standing (inserting : Inserting k recCnt b s before n d) :
    Standing k recCnt b s (before ++ [(n,d)]) n :=
  ⟨inserting.kept,inserting.stored,
    by simp,inserting.headerPage,inserting.headerPageNo,inserting.curPage,inserting.curPageNo⟩

theorem Standing.inserting (standing : Standing k recCnt b s (before ++ [(n,d)]) n) :
    Inserting k recCnt b s before n d :=
  ⟨standing.kept,standing.stored,standing.headerPage,standing.headerPageNo,standing.curPage,standing.curPageNo⟩

theorem Standing.destroy_spec {heap : Heap} (owned : k.Owned) (standing : Standing k.opened recCnt b s heap n) :
    (destroy b s).Keeps k ∧ (destroy b s).view = b.view := by
  have owned' : k.opened.Owned := owned
  obtain ⟨b1,unpinned,kept1,view1⟩ := standing.kept.unPinPage (owned'.hold _ _) true fun _ => rfl
  obtain ⟨kept2,view2⟩ := HeapFile.destroy_unpinned (h:={s.toHeapFile with curPage := none, curPageNo := 0}) owned
    standing.headerPageNo rfl kept1
  have done : destroy b s = ({s.toHeapFile with curPage := none, curPageNo := 0} : HeapFile).destroy b1 := by
    simp only [destroy,standing.curPage,standing.curPageNo,unpinned]
  rw [done]
  exact ⟨kept2,view2.trans view1⟩

theorem destroy_spec (owned : k.Owned) (inserting : Inserting k.opened recCnt b s before n d) :
    (destroy b s).Keeps k ∧ (destroy b s).view = b.view := inserting.standing.destroy_spec owned

-- The two pages that a record going onto the current page changes.
theorem Standing.counted_after {after : Heap} {b1 : Pool} (standing : Standing k recCnt b s (before ++ (n,d)::after) n)
    {q : Page}
    {d' : Slots} (kept1 : b1.Keeps ((k.hold k.first s.hdrDirtyFlag).hold n true))
    (view1 : ∀ m, b1.view m = if m = n then some q else b.view m) (held : Represents q n d')
    (next : q.nextPage = headNo after (-1))
    (full : ∀ e ∈ entries d', e.2 ≠ []) :
    ∃ b', InsertFileScan.counted b1 s = .ok (⟨{s.toHeapFile with hdrDirtyFlag := true, curDirtyFlag := true}⟩,b') ∧
      Standing k (Int.bmod (recCnt + 1) (256 ^ 4)) b' ⟨{s.toHeapFile with hdrDirtyFlag := true, curDirtyFlag := true}⟩
        (before ++ (n,d')::after) n := by
  obtain ⟨header,at_header,_,_,_,count⟩ := standing.stored.header
  have other := standing.stored.other
  have at_header1 : b1.view k.first = some header := by rw [view1,if_neg other]; exact at_header
  rw [Pool.Books.hold_comm] at kept1
  have read1 := kept1.deref at_header1
  obtain ⟨kept2,view2⟩ := kept1.assign (FileHdrPage.setRecCnt header (FileHdrPage.recCnt header + 1))
  rw [Pool.Books.hold_comm] at kept2
  refine ⟨_,by simp only [InsertFileScan.counted,standing.headerPage,read1,ok_bind]; rfl,
    kept2,?_,by simp,standing.headerPage,standing.headerPageNo,standing.curPage,standing.curPageNo⟩
  refine standing.stored.change q at_header (by rw [view2,if_pos rfl]) ?_ ?_ ⟨?_,?_,?_⟩ ?_ held next full
  · rw [view2,if_neg (Ne.symm other),view1,if_pos rfl]
  · intro m off_header off_page
    rw [view2,if_neg off_header,view1,if_neg off_page]
  · exact word_setWord_apart (by omega)
  · exact word_setWord_apart (by omega)
  · exact word_setWord_apart (by omega)
  · rw [← count]
    exact word_setWord (by omega) (by omega)

theorem Standing.counted {after : Heap} (standing : Standing k recCnt b s (before ++ (n,d)::after) n) {q : Page}
    {d' : Slots}
    (held : Represents q n d') (next : q.nextPage = headNo after (-1)) (full : ∀ e ∈ entries d', e.2 ≠ []) :
    ∃ b', InsertFileScan.counted (b.assign s.curPage q) s =
        .ok (⟨{s.toHeapFile with hdrDirtyFlag := true, curDirtyFlag := true}⟩,b') ∧
      Standing k (Int.bmod (recCnt + 1) (256 ^ 4)) b' ⟨{s.toHeapFile with hdrDirtyFlag := true, curDirtyFlag := true}⟩
        (before ++ (n,d')::after) n := by
  obtain ⟨kept1,view1⟩ := standing.kept.assign q
  rw [standing.curPage]
  exact standing.counted_after kept1 view1 held next full

theorem Standing.page {after : Heap} (standing : Standing k recCnt b s (before ++ (n,d)::after) n) :
    ∃ p, b.view n = some p ∧ b.deref s.curPage = .ok p ∧ Represents p n d ∧ p.nextPage = headNo after (-1) := by
  obtain ⟨p,_,seen,held,next⟩ := standing.stored.page
  exact ⟨p,seen,by rw [standing.curPage]; exact standing.kept.deref seen,held,next⟩

theorem Inserting.counted (inserting : Inserting k recCnt b s before n d) {q : Page} {d' : Slots}
    (held : Represents q n d')
    (next : q.nextPage = -1) (full : ∀ e ∈ entries d', e.2 ≠ []) :
    ∃ s' b', InsertFileScan.counted (b.assign s.curPage q) s = .ok (s',b') ∧
      Inserting k (Int.bmod (recCnt + 1) (256 ^ 4)) b' s' before n d' := by
  obtain ⟨b',counted,standing⟩ := inserting.standing.counted held next full
  exact ⟨_,b',counted,standing.inserting⟩

theorem Inserting.page (inserting : Inserting k recCnt b s before n d) :
    ∃ p, b.view n = some p ∧ b.deref s.curPage = .ok p ∧ Represents p n d ∧ p.nextPage = -1 := inserting.standing.page

-- Every way insertRecord can end: on the last page, on a new page behind it, or with an error,
-- which may leave that page linked but empty.
inductive Inserts (k : Pool.Books) (recCnt : Int) (before : Heap) (n : Int) (d : Slots) (bytes : List UInt8) :
    Except Abort (Except Status RID × InsertFileScan × Pool) → Prop where
  | here (b' : Pool) (s' : InsertFileScan) (done : Inserting k (Int.bmod (recCnt + 1) (256 ^ 4)) b' s' before n
      (put d bytes)) :
      Inserts k recCnt before n d bytes (.ok (.ok ⟨n,firstFree d⟩,s',b'))
  | newPage (b' : Pool) (s' : InsertFileScan) (m : Int)
      (done : Inserting k (Int.bmod (recCnt + 1) (256 ^ 4)) b' s' (before ++ [(n,d)]) m (put [] bytes)) :
      Inserts k recCnt before n d bytes (.ok (.ok ⟨m,firstFree ([] : Slots)⟩,s',b'))
  | refused (b' : Pool) (s' : InsertFileScan) (status : Status)
      (why : status = .unixErr ∨ status = .invalidRecLen ∧ dataSize < bytes.length)
      (still : Inserting k recCnt b' s' before n d) :
      Inserts k recCnt before n d bytes (.ok (.error status,s',b'))
  | tooLong (b' : Pool) (s' : InsertFileScan) (m : Int) (why : spaceLeft [] < bytes.length + slotSize)
      (still : Inserting k recCnt b' s' (before ++ [(n,d)]) m []) :
      Inserts k recCnt before n d bytes (.ok (.error .noSpace,s',b'))

theorem Inserting.started (inserting : Inserting k recCnt b s before n d) : 1 ≤ k.first := by
  obtain ⟨header,seen,_⟩ := inserting.stored.header
  exact (inserting.kept.in_file seen).1

theorem linkNewPage_spec (owned : k.Owned) (inserting : Inserting k recCnt b s before n d) :
    b.allocPage = (.error .unixErr,b) ∨
    ∃ b' s' m, linkNewPage b s = .ok (.ok (),s',b') ∧ Inserting k recCnt b' s' (before ++ [(n,d)]) m [] ∧
      s'.curDirtyFlag = s.curDirtyFlag ∧ b'.file.length = b.file.length + 1 := by
  rcases inserting.kept.allocPage with ⟨_,failed⟩ | ⟨m,garbage,b1,allocated,longer,low,absent,kept1,seen1,grown⟩
  · exact .inl failed
  right
  have started := inserting.started
  obtain ⟨p,seen,_,held,next⟩ := inserting.page
  obtain ⟨header,at_header,_⟩ := inserting.stored.header
  have header_page := inserting.stored.other
  have new_header : k.first ≠ m := by rintro same; rw [same,absent] at at_header; cases at_header
  have new_page : n ≠ m := by rintro same; rw [same,absent] at seen; cases seen
  -- The number of the new page fits an int.
  have bound := kept1.bound seen1
  have same_first : ((k.hold k.first s.hdrDirtyFlag).hold n true).starting m =
      (k.hold k.first s.hdrDirtyFlag).hold n true := by
    unfold Pool.Books.starting Pool.Books.hold
    rw [if_neg (by dsimp only; omega)]
  rw [same_first] at kept1
  generalize flag : s.hdrDirtyFlag = dirty at kept1
  -- newPage->init(newPageNo) and setNextPage(-1)
  have read1 := kept1.deref seen1
  obtain ⟨kept2,view2⟩ := kept1.assign ((garbage.init m).setNextPage (-1))
  generalize assigned2 : b1.assign (some m) ((garbage.init m).setNextPage (-1)) = b2 at kept2 view2
  -- the header page
  rw [Pool.Books.hold_comm k k.first n dirty true,Pool.Books.hold_comm (k.hold n true) k.first m dirty true] at kept2
  have at_header2 : b2.view k.first = some header := by rw [view2,if_neg new_header]; exact grown _ _ at_header
  have read2 := kept2.deref at_header2
  obtain ⟨kept3,view3⟩ := kept2.assign
    (FileHdrPage.setPageCnt (FileHdrPage.setLastPage header m)
      (FileHdrPage.pageCnt (FileHdrPage.setLastPage header m) + 1))
  generalize image : FileHdrPage.setPageCnt (FileHdrPage.setLastPage header m)
    (FileHdrPage.pageCnt (FileHdrPage.setLastPage header m) + 1) = header' at kept3 view3
  generalize assigned3 : b2.assign (some k.first) header' = b3 at kept3 view3
  -- the page that was the last one
  rw [Pool.Books.hold_comm k n m true true,Pool.Books.hold_comm (k.hold m true) n k.first true true,
    Pool.Books.hold_comm k m k.first true true] at kept3
  have seen3 : b3.view n = some p := by
    rw [view3,if_neg (Ne.symm header_page),view2,if_neg new_page]; exact grown _ _ seen
  have read3 := kept3.deref seen3
  obtain ⟨kept4,view4⟩ := kept3.assign (p.setNextPage m)
  generalize assigned4 : b3.assign (some n) (p.setNextPage m) = b4 at kept4 view4
  obtain ⟨b5,unpinned,kept5,view5⟩ := kept4.unPinPage ((owned.hold _ _).hold _ _) true id
  have one_more : b5.file.length = b.file.length + 1 := by
    rw [kept4.length_of_view kept5 view5,← assigned4,Pool.assign_file,← assigned3,Pool.assign_file,← assigned2,
      Pool.assign_file,longer]
  refine ⟨b5,⟨{s.toHeapFile with hdrDirtyFlag := true, curPage := some m, curPageNo := m}⟩,m,?_,?_,rfl,one_more⟩
  · simp only [linkNewPage,allocated,read1,ok_bind,assigned2,inserting.headerPage,read2,image,assigned3,
      inserting.curPage,read3,
      assigned4,inserting.curPageNo,unpinned]
    rfl
  · refine ⟨kept5,?_,inserting.headerPage,inserting.headerPageNo,rfl,rfl⟩
    rw [view5]
    refine inserting.stored.link header' (p.setNextPage m) ((garbage.init m).setNextPage (-1)) absent at_header
      ?_ ?_ ?_ low ?_ ?_ ?_ ?_ ?_ (held.setNextPage m) ?_ ?_ ?_
    · rw [view4,if_neg header_page,view3,if_pos rfl]
    · rw [view4,if_pos rfl]
    · rw [view4,if_neg (Ne.symm new_page),view3,if_neg (Ne.symm new_header),view2,if_pos rfl]
    · intro i other off_header off_page there
      have old : i ≠ m := by rintro rfl; rw [absent] at there; cases there
      rw [view4,if_neg off_page,view3,if_neg off_header,view2,if_neg old]
      exact grown _ _ there
    · rw [← image]
      exact (word_setWord_apart (by omega)).trans (word_setWord_apart (by omega))
    · rw [← image]
      exact (word_setWord_apart (by omega)).trans ((word_setWord (by omega) (by omega)).trans
        (int_bmod (by omega) (by omega)))
    · have kept_cnt : FileHdrPage.pageCnt (FileHdrPage.setLastPage header m) = FileHdrPage.pageCnt header :=
        word_setWord_apart (by omega)
      rw [← image,kept_cnt]
      exact word_setWord (by omega) (by omega)
    · rw [← image]
      exact (word_setWord_apart (by omega)).trans (word_setWord_apart (by omega))
    · exact (word_setWord (by omega) (by omega)).trans (int_bmod (by omega) (by omega))
    · exact (init_represents garbage (by omega) bound.2).setNextPage (-1)
    · exact word_setWord (by omega) (by omega)

theorem insertOnNewPage_spec {bytes : List UInt8} (owned : k.Owned) (positive : bytes ≠ [])
    (inserting : Inserting k recCnt b s before n d) :
    Inserts k recCnt before n d bytes (insertOnNewPage b s (.of bytes)) := by
  rcases linkNewPage_spec owned inserting with failed | ⟨b1,s1,m,linked,now,_⟩
  · simp only [insertOnNewPage,linkNewPage,failed]
    exact .refused b s .unixErr (.inl rfl) inserting
  · obtain ⟨p,_,read,held,next⟩ := now.page
    rw [insertOnNewPage,linked,ok_bind]
    dsimp only
    rw [read,ok_bind]
    rcases lt_or_ge (spaceLeft []) (bytes.length + slotSize) with full | room
    · rw [held.insert_full full]
      exact .tooLong b1 s1 m full now
    · obtain ⟨q,inserted,held',next'⟩ := held.insert_room room
      obtain ⟨s2,b2,counted,done⟩ := now.counted held' (next'.trans next) (full_put now.stored.full_page positive)
      rw [inserted]
      dsimp only
      rw [counted]
      exact .newPage b2 s2 m done

theorem insertOnCurrentPage_spec {bytes : List UInt8} (owned : k.Owned) (positive : bytes ≠ [])
    (inserting : Inserting k recCnt b s before n d) :
    Inserts k recCnt before n d bytes (insertOnCurrentPage b s (.of bytes)) := by
  obtain ⟨p,_,read,held,next⟩ := inserting.page
  rw [insertOnCurrentPage,read,ok_bind]
  rcases lt_or_ge (spaceLeft d) (bytes.length + slotSize) with full | room
  · rw [held.insert_full full]
    exact insertOnNewPage_spec owned positive inserting
  · obtain ⟨q,inserted,held',next'⟩ := held.insert_room room
    obtain ⟨s2,b2,counted,done⟩ := inserting.counted held' (next'.trans next)
      (full_put inserting.stored.full_page positive)
    rw [inserted]
    dsimp only
    rw [counted]
    exact .here b2 s2 done

theorem Inserting.insertRecord_spec {bytes : List UInt8} (owned : k.Owned) (positive : bytes ≠ [])
    (int : bytes.length < 2 ^ 31)
    (inserting : Inserting k recCnt b s before n d) :
    Inserts k recCnt before n d bytes (insertRecord b s (.of bytes)) := by
  have unsigned : (Record.of bytes).length % 2 ^ 32 = bytes.length := by
    dsimp only [Record.of]
    omega
  rw [insertRecord,unsigned]
  by_cases long : (bytes.length : Int) > dataSize
  · rw [if_pos long]
    exact .refused b s .invalidRecLen (.inr ⟨rfl,by omega⟩) inserting
  · rw [if_neg long,if_neg (by rw [inserting.curPage]; exact Option.some_ne_none _)]
    exact insertOnCurrentPage_spec owned positive inserting

-- On any page of the chain a record that fits goes into the lowest free slot of the page.
theorem Standing.insert_room {after : Heap} {bytes : List UInt8}
    (standing : Standing k recCnt b s (before ++ (n,d)::after) n)
    (positive : bytes ≠ []) (room : bytes.length + slotSize ≤ spaceLeft d) :
    ∃ b', insertRecord b s (.of bytes) =
        .ok (.ok ⟨n,firstFree d⟩,⟨{s.toHeapFile with hdrDirtyFlag := true, curDirtyFlag := true}⟩,b') ∧
      Standing k (Int.bmod (recCnt + 1) (256 ^ 4)) b' ⟨{s.toHeapFile with hdrDirtyFlag := true, curDirtyFlag := true}⟩
        (before ++ (n,put d bytes)::after) n := by
  obtain ⟨p,_,read,held,next⟩ := standing.page
  obtain ⟨q,inserted,held',next'⟩ := held.insert_room room
  obtain ⟨b',counted,standing'⟩ := standing.counted held' (next'.trans next)
    (full_put standing.stored.full_page positive)
  have short : ¬ (Record.of bytes).length % 2 ^ 32 > dataSize := by
    rw [spaceLeft,slotSize_eq,dataSize_eq] at room
    rw [dataSize_eq]
    dsimp only [Record.of]
    omega
  refine ⟨b',?_,standing'⟩
  rw [insertRecord,if_neg short,if_neg (by rw [standing.curPage]; exact Option.some_ne_none _),insertOnCurrentPage,
    read,ok_bind,
    inserted]
  dsimp only
  rw [counted]
  rfl

-- A client that inserts records and writes down what it was told.
def insertAll : List (List UInt8) → Pool → InsertFileScan → List Entry →
    Except Abort (List Entry × InsertFileScan × Pool)
  | [],b,s,ledger => return (ledger,s,b)
  | bytes::rest,b,s,ledger => do
    let (result,s,b) ← insertRecord b s (.of bytes)
    match result with
    | .ok rid => insertAll rest b s (ledger ++ [(rid,bytes)])
    | .error _ => insertAll rest b s ledger

-- From db.openFile in the constructor to db.closeFile in the destructor.
def session (b : Pool) (s : InsertFileScan) (recs : List (List UInt8)) (ledger : List Entry) :
    Except Abort (List Entry × Pool) := do
  let (_,b) := b.openFile
  let (_,s,b) ← construct b s
  let (ledger,s,b) ← insertAll recs b s ledger
  return (ledger,destroy b s)

-- A tuple width is positive and an int.
def Storable (bytes : List UInt8) : Prop := 1 ≤ bytes.length ∧ bytes.length < 2 ^ 31

theorem insertAll_spec {recs : List (List UInt8)} {ledger : List Entry} (owned : k.Owned)
    (storable : ∀ bytes ∈ recs, Storable bytes)
    (inserting : Inserting k recCnt b s before n d) (same : (records (before ++ [(n,d)])).Perm ledger) :
    ∃ recCnt' b' s' before' n' d' ledger', insertAll recs b s ledger = .ok (ledger',s',b') ∧
      Inserting k recCnt' b' s' before' n' d' ∧ (records (before' ++ [(n',d')])).Perm ledger' := by
  induction recs generalizing recCnt b s before n d ledger with
  | nil => exact ⟨recCnt,b,s,before,n,d,ledger,rfl,inserting,same⟩
  | cons bytes rest ih =>
    obtain ⟨positive,int⟩ := storable bytes (List.mem_cons_self ..)
    have later : ∀ bytes ∈ rest, Storable bytes := fun bytes member => storable bytes (List.mem_cons_of_mem _ member)
    have outcome := inserting.insertRecord_spec owned (List.ne_nil_of_length_pos positive) int
    rw [insertAll]
    generalize insertRecord b s (.of bytes) = result at outcome ⊢
    have one_more : ∀ {l : List Entry} {e : Entry}, l.Perm (e::ledger) → l.Perm (ledger ++ [e]) :=
      fun perm => perm.trans (List.perm_append_singleton _ _).symm
    cases outcome with
    | here b' s' done => exact ih later done (one_more ((records_put before n d bytes).trans (same.cons _)))
    | newPage b' s' m done =>
      refine ih later done (one_more ((records_put (before ++ [(n,d)]) m [] bytes).trans (List.Perm.cons _ ?_)))
      rw [records_linked]
      exact same
    | refused b' s' status _ still => exact ih later still same
    | tooLong b' s' m _ still =>
      refine ih later still ?_
      rw [records_linked]
      exact same

theorem session_spec {heap : Heap} {recs : List (List UInt8)} {ledger : List Entry} (owned : k.Owned) (kept : b.Keeps k)
    (stored : Stored b.view k.first heap recCnt) (s : InsertFileScan) (storable : ∀ bytes ∈ recs, Storable bytes)
    (same : (records heap).Perm ledger) :
    ∃ recCnt' heap' b' ledger', session b s recs ledger = .ok (ledger',b') ∧ b'.Keeps k ∧
      Stored b'.view k.first heap' recCnt' ∧
      (records heap').Perm ledger' := by
  obtain ⟨b1,opened,kept1,view1⟩ := kept.openFile
  have owned' : k.opened.Owned := owned
  obtain ⟨b2,s2,before,n,d,constructed,rfl,inserting,view2⟩ :=
    construct_spec owned' kept1 (by rw [view1]; exact stored) s
  obtain ⟨recCnt',b3,s3,before',n',d',ledger',done,inserting',same'⟩ := insertAll_spec owned' storable inserting same
  obtain ⟨kept4,view4⟩ := destroy_spec owned inserting'
  refine ⟨recCnt',before' ++ [(n',d')],destroy b3 s3,ledger',?_,kept4,by rw [view4]; exact inserting'.stored,same'⟩
  simp only [session,opened,constructed,ok_bind,done]
  rfl

end InsertFileScan
end Minirel
