import Minirel.Heap

namespace Minirel
open ByteMemory SlotDirectory Page Heap

theorem header_fields (p : Page) {n : Int} (low : -2147483648 ≤ n) (high : n < 2147483648) :
    let h := FileHdrPage.setFirstPage (FileHdrPage.setLastPage (FileHdrPage.setPageCnt (FileHdrPage.setRecCnt p 0) 1)
      n) n
    FileHdrPage.firstPage h = n ∧ FileHdrPage.lastPage h = n ∧ FileHdrPage.pageCnt h = 1 ∧
      FileHdrPage.recCnt h = 0 := by
  simp (disch := omega) only [FileHdrPage.setFirstPage,FileHdrPage.setLastPage,FileHdrPage.setPageCnt,
    FileHdrPage.setRecCnt,
    FileHdrPage.firstPage,FileHdrPage.lastPage,FileHdrPage.pageCnt,FileHdrPage.recCnt,word_setWord_apart,word_setWord,int_bmod,and_self]

-- A new heap file has one empty page and nobody holds on to it.
theorem createHeapFile_spec (stale : Int → Page) (name : Name) :
    ∃ hdr n b, (Pool.created stale).createHeapFile name = .ok (.ok,b) ∧ b.Keeps {Pool.Books.unused with first := hdr} ∧
      Stored b.view hdr [(n,[])] 0 := by
  have kept0 := Pool.created_keeps stale
  have none_loose : Pool.Books.unused.opened.Owned := fun _ marked => False.elim marked
  rcases kept0.allocPage with ⟨huge,_⟩ | ⟨hdr,garbage,b1,allocated1,longer1,low1,absent1,kept1,seen1,grown1⟩
  · cases huge
  have bound1 := kept1.bound seen1
  have started : Pool.Books.unused.opened.starting hdr = {Pool.Books.unused.opened with first := hdr} := rfl
  rw [started] at kept1
  have read1 := kept1.deref seen1
  obtain ⟨kept2,view2⟩ := kept1.assign (FileHdrPage.setFileName garbage name)
  have size2 := Pool.assign_file b1 (some hdr) (FileHdrPage.setFileName garbage name)
  generalize assigned2 : b1.assign (some hdr) (FileHdrPage.setFileName garbage name) = b2 at kept2 view2 size2
  rcases kept2.allocPage with ⟨huge,_⟩ | ⟨n,garbage',b3,allocated3,_,low3,absent3,kept3,seen3,grown3⟩
  · have short : (Pool.created stale).file.length = 1 := rfl
    rw [size2,longer1,short] at huge
    cases huge
  have bound3 := kept3.bound seen3
  have at_header : b2.view hdr = some (FileHdrPage.setFileName garbage name) := by rw [view2,if_pos rfl]
  have other : hdr ≠ n := by rintro rfl; rw [absent3] at at_header; cases at_header
  generalize books : ({Pool.Books.unused.opened with first := hdr} : Pool.Books) = k at kept3
  have owned : k.Owned := by rw [← books]; exact none_loose
  have same_first : (k.hold hdr true).starting n = k.hold hdr true := by
    rw [← books]
    unfold Pool.Books.starting Pool.Books.hold
    rw [if_neg (by dsimp only; omega)]
  rw [same_first] at kept3
  have read3 := kept3.deref seen3
  obtain ⟨kept4,view4⟩ := kept3.assign ((garbage'.init n).setNextPage (-1))
  generalize assigned4 : b3.assign (some n) ((garbage'.init n).setNextPage (-1)) = b4 at kept4 view4
  rw [Pool.Books.hold_comm] at kept4
  have at_header4 : b4.view hdr = some (FileHdrPage.setFileName garbage name) := by
    rw [view4,if_neg other]; exact grown3 _ _ at_header
  have read4 := kept4.deref at_header4
  obtain ⟨first,last,pages,count⟩ := header_fields (FileHdrPage.setFileName garbage name) (n:=n) (by omega) bound3.2
  generalize image : FileHdrPage.setFirstPage (FileHdrPage.setLastPage (FileHdrPage.setPageCnt
    (FileHdrPage.setRecCnt (FileHdrPage.setFileName garbage name) 0) 1) n) n = header at first last pages count
  obtain ⟨kept5,view5⟩ := kept4.assign header
  generalize assigned5 : b4.assign (some hdr) header = b5 at kept5 view5
  rw [Pool.Books.hold_comm] at kept5
  obtain ⟨b6,unpinned6,kept6,view6⟩ := kept5.unPinPage (owned.hold _ _) true id
  obtain ⟨b7,unpinned7,kept7,view7⟩ := kept6.unPinPage owned true id
  obtain ⟨b8,closed,kept8,view8⟩ := Pool.Keeps.closeFile (k:={Pool.Books.unused with first := hdr})
    (by rw [← books] at kept7; exact kept7)
  refine ⟨hdr,n,b8,?_,kept8,?_⟩
  · simp only [Pool.createHeapFile,allocated1,read1,ok_bind,assigned2,allocated3,read3,assigned4,read4,image,assigned5,
      unpinned6,unpinned7,closed]
    rfl
  · rw [view8,view7,view6]
    refine ⟨⟨header,by rw [view5,if_pos rfl],first,last,by rw [pages,List.length_singleton,Nat.cast_one]; decide,count⟩,
      ⟨⟨(garbage'.init n).setNextPage (-1),low3,?_,
      (init_represents garbage' (by omega) bound3.2).setNextPage (-1),word_setWord (by omega)
      (by omega)⟩,trivial⟩,?_,?_,?_,?_⟩
    · rw [view5,if_neg (Ne.symm other),view4,if_pos rfl]
    · simpa [pageNos] using other
    · simp [pageNos]
    · simp
    · simp [pageRecords,entries,entriesFrom]

namespace HeapFile

variable {k : Pool.Books} {recCnt : Int} {b : Pool} {heap : Heap}

-- What the constructor leaves: the header page and the first data page are pinned.
def fresh (hdr n : Int) : HeapFile := ⟨some hdr,hdr,false,some n,n,false,nullRid⟩

-- Every constructor pins these two pages, one after the other.
theorem opening (kept : b.Keeps k) (stored : Stored b.view k.first heap recCnt) :
    ∃ n d rest header b1 b2, heap = (n,d)::rest ∧ b.readPage k.first = (.ok,b1) ∧ b1.deref (some k.first) = .ok header ∧
      FileHdrPage.firstPage header = n ∧ b1.readPage n = (.ok,b2) ∧ b2.Keeps ((k.hold k.first false).hold n false) ∧
      b2.view = b.view := by
  obtain ⟨⟨n,d⟩,rest,rfl⟩ := List.exists_cons_of_ne_nil stored.some_page
  obtain ⟨header,seen,first,_⟩ := stored.header
  obtain ⟨p,_,seen_first,_⟩ := stored.chain.1
  obtain ⟨b1,read1,kept1,view1⟩ := kept.readPage seen
  have seen1 : b1.view k.first = some header := by rw [view1]; exact seen
  have seen_first1 : b1.view n = some p := by rw [view1]; exact seen_first
  obtain ⟨b2,read2,kept2,view2⟩ := kept1.readPage seen_first1
  exact ⟨n,d,rest,header,b1,b2,rfl,read1,kept1.deref seen1,first,read2,kept2,view2.trans view1⟩

theorem construct_spec (kept : b.Keeps k) (stored : Stored b.view k.first heap recCnt) (h : HeapFile) :
    ∃ n d rest b', heap = (n,d)::rest ∧ construct b h = .ok (.ok,fresh k.first n,b') ∧
      b'.Keeps ((k.hold k.first false).hold n false) ∧ b'.view = b.view := by
  obtain ⟨n,d,rest,header,b1,b2,split,read1,header1,first,read2,kept2,view2⟩ := opening kept stored
  refine ⟨n,d,rest,b2,split,?_,kept2,view2⟩
  simp only [construct,kept.getFirstPage,read1,header1,ok_bind,first,read2,fresh]
  rfl

-- The end of an object that still has a data page, and of one that has given it back.
theorem destroy_pinned {h : HeapFile} {n : Int} (owned : k.Owned) (header : h.headerPageNo = k.first)
    (cur : h.curPage = some n)
    (no : h.curPageNo = n) (kept : b.Keeps ((k.opened.hold k.first h.hdrDirtyFlag).hold n h.curDirtyFlag)) :
    (h.destroy b).Keeps k ∧ (h.destroy b).view = b.view := by
  have owned' : k.opened.Owned := owned
  obtain ⟨b1,one,kept1,view1⟩ := kept.unPinPage (owned'.hold _ _) h.curDirtyFlag id
  obtain ⟨b2,two,kept2,view2⟩ := kept1.unPinPage owned' h.hdrDirtyFlag id
  obtain ⟨b3,three,kept3,view3⟩ := kept2.closeFile
  have done : h.destroy b = b3 := by simp only [destroy,cur,no,header,one,two,three]
  rw [done]
  exact ⟨kept3,view3.trans (view2.trans view1)⟩

theorem destroy_unpinned {h : HeapFile} (owned : k.Owned) (header : h.headerPageNo = k.first) (cur : h.curPage = none)
    (kept : b.Keeps (k.opened.hold k.first h.hdrDirtyFlag)) : (h.destroy b).Keeps k ∧ (h.destroy b).view = b.view := by
  have owned' : k.opened.Owned := owned
  obtain ⟨b2,two,kept2,view2⟩ := kept.unPinPage owned' h.hdrDirtyFlag id
  obtain ⟨b3,three,kept3,view3⟩ := kept2.closeFile
  have done : h.destroy b = b3 := by simp only [destroy,cur,header,two,three]
  rw [done]
  exact ⟨kept3,view3.trans view2⟩

end HeapFile
end Minirel
