import Minirel.PoolBooks
import Minirel.HeapFile
import Minirel.PageDirectory

namespace Minirel
open ByteMemory SlotDirectory Page

-- The data pages of a heap file in the order of their chain.
abbrev Heap := List (Int × Slots)
abbrev Entry := RID × List UInt8

namespace Heap

def pageRecords (pageNo : Int) (d : Slots) : List Entry := (entries d).map fun e => (⟨pageNo,e.1⟩,e.2)
def records (heap : Heap) : List Entry := heap.flatMap fun p => pageRecords p.1 p.2
def pageNos (heap : Heap) : List Int := heap.map Prod.fst

-- The number in the pointer to the first page of a part of the chain, and in the one to its last.
def headNo : Heap → Int → Int
  | [],stop => stop
  | (n,_)::_,_ => n

def lastNo (heap : Heap) : Int := heap.getLast?.elim (-1) Prod.fst

variable {view view' : Int → Option Page} {heap before after : Heap} {stop n : Int} {d : Slots}

def Link (view : Int → Option Page) (n : Int) (d : Slots) (next : Int) : Prop :=
  ∃ p, 1 ≤ n ∧ view n = some p ∧ Represents p n d ∧ p.nextPage = next

def Chain (view : Int → Option Page) : Heap → Int → Prop
  | [],_ => True
  | (n,d)::rest,stop => Link view n d (headNo rest stop) ∧ Chain view rest stop

@[simp] theorem records_nil : records [] = [] := rfl
@[simp] theorem records_cons (n : Int) (d : Slots) (rest : Heap) :
    records ((n,d)::rest) = pageRecords n d ++ records rest := rfl
@[simp] theorem records_append (one two : Heap) : records (one ++ two) = records one ++ records two :=
    List.flatMap_append
@[simp] theorem pageNos_append (one two : Heap) : pageNos (one ++ two) = pageNos one ++ pageNos two := List.map_append
@[simp] theorem pageNos_cons (n : Int) (d : Slots) (rest : Heap) : pageNos ((n,d)::rest) = n::pageNos rest := rfl
theorem lastNo_concat (before : Heap) (last : Int × Slots) : lastNo (before ++ [last]) = last.1 := by simp [lastNo]

theorem headNo_append (one two : Heap) (stop : Int) : headNo (one ++ two) stop = headNo one (headNo two stop) := by
  cases one <;> rfl

theorem lastNo_set (before after : Heap) (n : Int) (d d' : Slots) :
    lastNo (before ++ (n,d)::after) = lastNo (before ++ (n,d')::after) := by
  rcases List.eq_nil_or_concat after with rfl | ⟨rest,last,rfl⟩
  · rw [lastNo_concat,lastNo_concat]
  · rw [List.concat_eq_append,← List.cons_append,← List.append_assoc,lastNo_concat,← List.cons_append,
      ← List.append_assoc,
      lastNo_concat]

theorem mem_pageRecords {rid : RID} {bytes : List UInt8} :
    (rid,bytes) ∈ pageRecords n d ↔ ∃ i : Nat, rid = ⟨n,i⟩ ∧ lookup d i = some bytes := by
  constructor
  · intro member
    obtain ⟨⟨i,v⟩,here,same⟩ := List.mem_map.mp member
    cases same
    exact ⟨i,rfl,mem_entries.mp here⟩
  · rintro ⟨i,rfl,found⟩
    exact List.mem_map.mpr ⟨(i,bytes),mem_entries.mpr found,rfl⟩

theorem chain_append (one two : Heap) : Chain view (one ++ two) stop ↔ Chain view one (headNo two stop) ∧
    Chain view two stop := by
  induction one with
  | nil => simp [Chain]
  | cons page rest ih => simp only [List.cons_append,Chain,ih,headNo_append,and_assoc]

theorem Link.congr {next : Int} (link : Link view n d next) (same : view' n = view n) : Link view' n d next := by
  rwa [Link,same]

theorem Chain.congr (chain : Chain view heap stop) (same : ∀ n ∈ pageNos heap, view' n = view n) :
    Chain view' heap stop := by
  induction heap with
  | nil => trivial
  | cons page rest ih =>
    exact ⟨chain.1.congr (same page.1 (List.mem_cons_self ..)),
      ih chain.2 fun n member => same n (List.mem_cons_of_mem _ member)⟩

theorem Chain.at (chain : Chain view (before ++ (n,d)::after) stop) : Link view n d (headNo after stop) :=
  ((chain_append before _).mp chain).2.1

-- A heap file: its header page, and the chain that the header page names the ends of.
structure Stored (view : Int → Option Page) (hdr : Int) (heap : Heap) (recCnt : Int) : Prop where
  header : ∃ page, view hdr = some page ∧ FileHdrPage.firstPage page = headNo heap (-1) ∧
    FileHdrPage.lastPage page = lastNo heap ∧ FileHdrPage.pageCnt page = Int.bmod heap.length (256 ^ 4) ∧
    FileHdrPage.recCnt page = recCnt
  chain : Chain view heap (-1)
  apart : hdr ∉ pageNos heap
  nodup : (pageNos heap).Nodup
  some_page : heap ≠ []
  full : ∀ e ∈ records heap, e.2 ≠ []

variable {hdr recCnt : Int}

theorem Stored.recCnt_int (stored : Stored view hdr heap recCnt) : Int.bmod recCnt (256 ^ 4) = recCnt := by
  obtain ⟨page,_,_,_,_,count⟩ := stored.header
  rw [← count]
  exact word_bmod page 4 64

theorem Stored.page (stored : Stored view hdr (before ++ (n,d)::after) recCnt) : Link view n d (headNo after (-1)) :=
  stored.chain.at

theorem Stored.other (stored : Stored view hdr (before ++ (n,d)::after) recCnt) : hdr ≠ n := by
  rintro rfl
  exact stored.apart (by simp)

theorem Stored.nonempty (stored : Stored view hdr (before ++ (n,d)::after) recCnt) {i : Nat} {bytes : List UInt8}
    (found : lookup d i = some bytes) : bytes ≠ [] :=
  stored.full (⟨n,i⟩,bytes) (by simp [mem_pageRecords,found])

theorem Chain.unique {heap heap' : Heap} (one : Chain view heap (-1)) (two : Chain view heap' (-1))
    (full : ∀ e ∈ records heap, e.2 ≠ [])
    (full' : ∀ e ∈ records heap', e.2 ≠ []) (start : headNo heap (-1) = headNo heap' (-1)) : heap = heap' := by
  have low : ∀ {n d rest next}, Chain view ((n,d)::rest) next → 1 ≤ n := fun chain => chain.1.choose_spec.1
  have filled : ∀ {n : Int} {d : Slots} {rest : Heap}, (∀ e ∈ records ((n,d)::rest), e.2 ≠ []) →
      ∀ i, lookup d i ≠ some [] :=
    fun full i empty => full (⟨_,i⟩,[]) (List.mem_append_left _ (mem_pageRecords.mpr ⟨i,rfl,empty⟩)) rfl
  induction heap generalizing heap' with
  | nil =>
    cases heap' with
    | nil => rfl
    | cons page rest =>
      have positive := low two
      change -1 = page.1 at start
      omega
  | cons page rest ih =>
    obtain ⟨n,d⟩ := page
    cases heap' with
    | nil =>
      have positive := low one
      change n = -1 at start
      omega
    | cons page' rest' =>
      obtain ⟨n',d'⟩ := page'
      cases (start : n = n')
      obtain ⟨⟨p,_,seen,held,next⟩,tail⟩ := one
      obtain ⟨⟨p',_,seen',held',next'⟩,tail'⟩ := two
      cases Option.some.inj (seen.symm.trans seen')
      cases held.unique held' (filled full) (filled full')
      rw [ih tail tail' (fun e member => full e (List.mem_append_right _ member))
        (fun e member => full' e (List.mem_append_right _ member))
        (next.symm.trans next')]

-- What is on the pages decides which heap file it is.
theorem Stored.unique {heap' : Heap} {recCnt' : Int} (one : Stored view hdr heap recCnt)
    (two : Stored view hdr heap' recCnt') :
    heap = heap' ∧ recCnt = recCnt' := by
  obtain ⟨page,seen,first,_,_,count⟩ := one.header
  obtain ⟨page',seen',first',_,_,count'⟩ := two.header
  cases Option.some.inj (seen.symm.trans seen')
  exact ⟨one.chain.unique two.chain one.full two.full (first.symm.trans first'),count.symm.trans count'⟩

-- One page of the chain and the record count are all that a change of records touches.
theorem Stored.change (stored : Stored view hdr (before ++ (n,d)::after) recCnt) {d' : Slots} {recCnt' : Int}
    {header header' : Page} (page : Page) (read : view hdr = some header) (header_view : view' hdr = some header')
    (page_view : view' n = some page) (others : ∀ m, m ≠ hdr → m ≠ n → view' m = view m)
    (kept : FileHdrPage.firstPage header' = FileHdrPage.firstPage header ∧ FileHdrPage.lastPage header' =
      FileHdrPage.lastPage header ∧
      FileHdrPage.pageCnt header' = FileHdrPage.pageCnt header) (count : FileHdrPage.recCnt header' = recCnt')
    (held : Represents page n d') (next : page.nextPage = headNo after (-1)) (full : ∀ e ∈ entries d', e.2 ≠ []) :
    Stored view' hdr (before ++ (n,d')::after) recCnt' := by
  obtain ⟨old,seen,first,last,pages,_⟩ := stored.header
  rw [read] at seen
  cases seen
  have nodup := stored.nodup
  have apart := stored.apart
  rw [pageNos_append,pageNos_cons] at nodup apart
  have off_before : ∀ m ∈ pageNos before, m ≠ hdr ∧ m ≠ n := fun m member =>
    ⟨by rintro rfl; exact apart (List.mem_append_left _ member),
      fun same => (List.nodup_append.mp nodup).2.2 m member n (List.mem_cons_self ..) same⟩
  have off_after : ∀ m ∈ pageNos after, m ≠ hdr ∧ m ≠ n := fun m member =>
    ⟨by rintro rfl; exact apart (List.mem_append_right _ (List.mem_cons_of_mem _ member)),
      by rintro rfl; exact (List.nodup_cons.mp (List.nodup_append.mp nodup).2.1).1 member⟩
  obtain ⟨left,⟨p,low,_,_,_⟩,right⟩ := (chain_append before _).mp stored.chain
  constructor
  case header =>
    refine ⟨header',header_view,?_,?_,?_,count⟩
    · rw [kept.1,first,headNo_append,headNo_append]; rfl
    · rw [kept.2.1,last,lastNo_set]
    · rw [kept.2.2,pages]; simp
  case chain =>
    refine (chain_append before _).mpr ⟨left.congr ?_,⟨page,low,page_view,held,next⟩,right.congr ?_⟩
    · exact fun m member => others m (off_before m member).1 (off_before m member).2
    · exact fun m member => others m (off_after m member).1 (off_after m member).2
  case apart => rw [pageNos_append,pageNos_cons]; exact apart
  case nodup => rw [pageNos_append,pageNos_cons]; exact nodup
  case some_page => simp
  case full =>
    intro e member
    rw [records_append,records_cons,List.mem_append,List.mem_append] at member
    rcases member with earlier | here | later
    · exact stored.full e (by rw [records_append]; exact List.mem_append_left _ earlier)
    · obtain ⟨entry,inside,rfl⟩ := List.mem_map.mp here
      exact full entry inside
    · exact stored.full e (by rw [records_append,records_cons]; exact List.mem_append_right _ (List.mem_append_right
        _ later))

theorem keys_nodup_page (n : Int) (d : Slots) : ((pageRecords n d).map Prod.fst).Nodup := by
  have keys := entries_keys_nodup d
  rw [pageRecords,List.map_map]
  rw [List.Nodup,List.pairwise_map] at keys ⊢
  refine keys.imp fun apart same => apart ?_
  simpa using same

-- Every record of the file has a RID of its own.
theorem records_keys_nodup (nodup : (pageNos heap).Nodup) : ((records heap).map Prod.fst).Nodup := by
  induction heap with
  | nil => simp
  | cons page rest ih =>
    obtain ⟨n,d⟩ := page
    rw [pageNos_cons,List.nodup_cons] at nodup
    rw [records_cons,List.map_append,List.nodup_append]
    refine ⟨keys_nodup_page n d,ih nodup.2,?_⟩
    rintro one here two there rfl
    obtain ⟨⟨rid,bytes⟩,first,rfl⟩ := List.mem_map.mp here
    obtain ⟨⟨_,bytes'⟩,second,same⟩ := List.mem_map.mp there
    cases same
    obtain ⟨i,rfl,_⟩ := mem_pageRecords.mp first
    obtain ⟨⟨m,d'⟩,inside,member⟩ := List.mem_flatMap.mp second
    obtain ⟨j,same,_⟩ := mem_pageRecords.mp member
    cases same
    exact nodup.1 (List.mem_map.mpr ⟨_,inside,rfl⟩)

theorem pageRecords_remove (n : Int) (d : Slots) (i : Nat) :
    pageRecords n (remove d i) = (pageRecords n d).filter (fun e => e.1 ≠ ⟨n,i⟩) := by
  rw [pageRecords,entries_remove,pageRecords,List.filter_map]
  refine congrArg _ (List.filter_congr fun e _ => ?_)
  simp

theorem records_elsewhere (rid : RID) (off : rid.pageNo ∉ pageNos heap) :
    (records heap).filter (fun e => e.1 ≠ rid) = records heap := by
  apply List.filter_eq_self.mpr
  rintro ⟨other,bytes⟩ member
  obtain ⟨⟨m,d⟩,inside,here⟩ := List.mem_flatMap.mp member
  obtain ⟨j,rfl,_⟩ := mem_pageRecords.mp here
  refine decide_eq_true fun same => off ?_
  rw [← same]
  exact List.mem_map.mpr ⟨_,inside,rfl⟩

theorem records_remove (nodup : (pageNos (before ++ (n,d)::after)).Nodup) (i : Nat) :
    records (before ++ (n,remove d i)::after) = (records (before ++ (n,d)::after)).filter (fun e => e.1 ≠ ⟨n,i⟩) := by
  rw [pageNos_append,pageNos_cons] at nodup
  have off_before : n ∉ pageNos before := fun member =>
    (List.nodup_append.mp nodup).2.2 n member n (List.mem_cons_self ..) rfl
  have off_after : n ∉ pageNos after := (List.nodup_cons.mp (List.nodup_append.mp nodup).2.1).1
  simp only [records_append,records_cons,List.filter_append,pageRecords_remove]
  rw [records_elsewhere ⟨n,i⟩ off_before,records_elsewhere ⟨n,i⟩ off_after]

end Heap
end Minirel
