import Minirel.Landings

namespace Minirel
open ByteMemory SlotDirectory Page Heap

namespace Heap

@[simp] theorem pageNos_nil : pageNos [] = [] := rfl

theorem records_pageNo {heap : Heap} {e : Entry} (member : e ∈ records heap) : e.1.pageNo ∈ pageNos heap := by
  obtain ⟨⟨p,slots⟩,inside,here⟩ := List.mem_flatMap.mp member
  obtain ⟨i,at_rid,_⟩ := mem_pageRecords.mp here
  rw [at_rid]
  exact List.mem_map.mpr ⟨(p,slots),inside,rfl⟩

end Heap

-- The pages of a file that records go into: those before the last, the last, and the record count.
structure Tail where
  before : Heap
  last : Int
  slots : Slots
  recCnt : Int

namespace Tail

def heap (t : Tail) : Heap := t.before ++ [(t.last,t.slots)]

def Takes (t : Tail) (bytes : List UInt8) (result : Except Status RID) (t' : Tail) : Prop :=
  Lands t.before t.last t.slots bytes result t'.before t'.last t'.slots

variable {t t' : Tail} {bytes : List UInt8} {rid : RID}

theorem Takes.at_last (takes : t.Takes bytes (.ok rid) t') : rid.pageNo = t'.last := by
  obtain ⟨before,n,d,recCnt⟩ := t
  obtain ⟨before',n',d',recCnt'⟩ := t'
  unfold Takes at takes
  cases takes <;> rfl

theorem Takes.pages {result : Except Status RID} (takes : t.Takes bytes result t') :
    ∃ more, pageNos t'.heap = pageNos t.heap ++ more := by
  obtain ⟨before,n,d,recCnt⟩ := t
  obtain ⟨before',n',d',recCnt'⟩ := t'
  unfold Takes at takes
  dsimp only [heap] at takes ⊢
  cases takes with
  | here room => exact ⟨[],by simp⟩
  | newPage m full fresh => exact ⟨[n'],by simp⟩
  | refused status failed => exact ⟨[],by simp⟩
  | linked m status failed fresh => exact ⟨[n'],by simp⟩

-- No record had the RID of a new one.
theorem Takes.fresh (takes : t.Takes bytes (.ok rid) t') (nodup : (pageNos t'.heap).Nodup) :
    (rid,bytes) ∉ records t.heap := by
  have keys := records_keys_nodup nodup
  obtain ⟨left,right,old,new⟩ := takes.more
  rw [show records t'.heap = left ++ (rid,bytes)::right from new,List.map_append,List.map_cons] at keys
  rw [show records t.heap = left ++ right from old]
  intro member
  have twice := (List.nodup_middle.mp keys)
  rw [List.nodup_cons,List.mem_append] at twice
  rcases List.mem_append.mp member with low | high
  · exact twice.1 (.inl (List.mem_map_of_mem low))
  · exact twice.1 (.inr (List.mem_map_of_mem high))

end Tail

namespace Heap

-- A file with the records that have been inserted into it one after the other, and where they lie
-- among those of an earlier state.
structure Grown (heap : Heap) (w : Nat) (own : List Entry) (t : Tail) : Prop where
  filled : Filled heap w own.length t.before t.last t.slots
  appending : Appending heap t.before t.last t.slots (own.map Prod.snd)
  nodup : (pageNos t.heap).Nodup
  mem : ∀ x, x ∈ records t.heap ↔ x ∈ records heap ∨ x ∈ own
  apart : ∀ x ∈ own, x ∉ records heap
  pages : ∃ more, pageNos t.heap = pageNos heap ++ more
  late : ∀ x ∈ own, x.1.pageNo ∉ pageNos heap.dropLast
  placed : ∀ (j : Nat) x, own[j]? = some x → ∀ o ∈ records heap,
    (x.1.pageNo = o.1.pageNo ∧ x.1.slotNo < o.1.slotNo ↔ Before heap w j o.1)

variable {heap : Heap} {w : Nat} {own : List Entry} {t t' : Tail} {bytes : List UInt8} {rid : RID}

theorem Grown.start (w : Nat) (split : heap = t.heap) (nodup : (pageNos heap).Nodup) : Grown heap w [] t := by
  refine ⟨Filled.start split w,Appending.start split,by rw [← split]; exact nodup,fun x => by rw [← split]; simp,
    nofun,⟨[],by rw [← split]; simp⟩,nofun,fun j x there => by simp at there⟩

theorem Grown.heap_nodup (grown : Grown heap w own t) : (pageNos heap).Nodup := by
  obtain ⟨more,pages⟩ := grown.pages
  have nodup := grown.nodup
  rw [pages] at nodup
  exact (List.nodup_append.mp nodup).1

-- The last page is none of those that were before the last one.
theorem Grown.last_late {more : List Int} (nodup : (pageNos t.heap).Nodup)
    (pages : pageNos t.heap = pageNos heap ++ more)
    (some_page : heap ≠ []) : t.last ∉ pageNos heap.dropLast := by
  obtain ⟨front,⟨n0,d0⟩,rfl⟩ := (List.eq_nil_or_concat heap).resolve_left some_page
  rw [List.concat_eq_append] at pages ⊢
  rw [List.dropLast_concat]
  intro early
  have at_end : (pageNos t.heap).getLast? = some t.last := by simp [Tail.heap]
  rw [pages,pageNos_append,List.append_assoc] at at_end nodup
  have later : t.last ∈ pageNos [(n0,d0)] ++ more := by
    have some_later : pageNos [(n0,d0)] ++ more ≠ [] := by simp
    rw [List.getLast?_append_of_ne_nil _ some_later] at at_end
    exact List.mem_of_getLast? at_end
  exact (List.nodup_append.mp nodup).2.2 t.last early t.last later rfl

theorem Grown.takes (grown : Grown heap w own t) (takes : t.Takes bytes (.ok rid) t') (nodup : (pageNos t'.heap).Nodup)
    (width : bytes.length = w) : Grown heap w (own ++ [(rid,bytes)]) t' := by
  have more : OneMore (rid,bytes) (records t.heap) (records t'.heap) := takes.more
  have old_nodup := grown.heap_nodup
  have some_page : heap ≠ [] := by
    rintro rfl
    obtain ⟨before,n,d,recCnt⟩ := t
    cases grown.filled with
    | same _ _ d0 _ last => simp at last
    | past before0 more n0 _ d0 d1 _ last => simp at last
  have fresh := takes.fresh nodup
  obtain ⟨more_old,pages_old⟩ := grown.pages
  obtain ⟨more_new,pages_new⟩ := takes.pages
  have pages : pageNos t'.heap = pageNos heap ++ (more_old ++ more_new) := by
    rw [pages_new,pages_old,List.append_assoc]
  constructor
  case filled =>
    rw [List.length_append]
    exact grown.filled.step width takes
  case appending =>
    rw [List.map_append]
    exact (takes.appending grown.nodup grown.appending).1 rid rfl
  case nodup => exact nodup
  case mem =>
    intro x
    rw [more.mem_iff,grown.mem,List.mem_append,List.mem_singleton,or_assoc]
  case apart =>
    intro x member old
    rcases List.mem_append.mp member with earlier | now
    · exact grown.apart x earlier old
    · rw [List.mem_singleton.mp now] at old
      exact fresh ((grown.mem _).mpr (.inl old))
  case pages => exact ⟨_,pages⟩
  case late =>
    intro x member
    rcases List.mem_append.mp member with earlier | now
    · exact grown.late x earlier
    · rw [List.mem_singleton.mp now,show ((rid,bytes) : Entry).1.pageNo = t'.last from takes.at_last]
      exact last_late nodup pages some_page
  case placed =>
    intro j x there o old
    rcases Nat.lt_or_ge j own.length with earlier | now
    · rw [List.getElem?_append_left earlier] at there
      exact grown.placed j x there o old
    · rw [List.getElem?_append_right now] at there
      obtain ⟨zero,same⟩ := List.getElem?_eq_some_iff.mp there
      have at_end : j = own.length := by
        rw [List.length_singleton] at zero
        omega
      subst at_end
      simp only [Nat.sub_self,List.getElem_cons_zero] at same
      subst same
      exact grown.filled.before_iff width takes old_nodup old

theorem Grown.refused {status : Status} (grown : Grown heap w own t) (takes : t.Takes bytes (.error status) t') :
    Appending heap t'.before t'.last t'.slots (own.map Prod.snd) :=
  (takes.appending grown.nodup grown.appending).2 status rfl

-- The items before one of the first part are items of that part, and not its last.
theorem early_items {α : Type} {front back whole more : List α} {p y : α} (same : front ++ p::back = whole ++ more)
    (nodup : (front ++ p::back).Nodup) (inside : p ∈ whole) (early : y ∈ front) : y ∈ whole.dropLast := by
  obtain ⟨low,high,rfl⟩ := List.append_of_mem inside
  have twice := List.nodup_cons.mp (List.nodup_middle.mp nodup)
  rw [List.append_assoc,List.cons_append] at same
  have off : p ∉ front ++ back := twice.1
  rw [List.mem_append,not_or] at off
  obtain ⟨rfl,_,_⟩ := (List.append_cons_inj_of_notMem off.1 off.2).mp same
  rw [List.dropLast_append_cons]
  exact List.mem_append_left _ early

theorem Grown.length (grown : Grown heap w own t) :
    (records t.heap).length = (records heap).length + own.length := by
  have perm := grown.appending.gains.perm.length_eq
  simpa [Tail.heap] using perm

-- With a record of the earlier state as the current one, an inserted record is still to come unless it
-- lies before that.
theorem Grown.ahead_iff (grown : Grown heap w own t) {c : Cursor} (whole : c.heap = t.heap) {o : Entry}
    (old : o ∈ records heap) (current : c.Current o) {j : Nat} {x : Entry} (there : own[j]? = some x) :
    x ∈ c.remaining ↔ ¬ Before heap w j o.1 := by
  rw [← grown.placed j x there o old]
  have inside : x ∈ own := List.mem_of_getElem? there
  have listed : x ∈ records t.heap := (grown.mem x).mpr (.inr inside)
  have other : x.1 ≠ o.1 := fun same => by
    have equal := List.inj_on_of_nodup_map (records_keys_nodup grown.nodup) listed
      ((grown.mem o).mpr (.inl old)) same
    exact grown.apart x inside (equal ▸ old)
  obtain ⟨more,pages⟩ := grown.pages
  have nodup := grown.nodup
  obtain ⟨⟨n,slot⟩,bytes⟩ := x
  obtain ⟨front,p,slots,after,next⟩ := c
  obtain ⟨⟨_,_⟩,here⟩ := o
  obtain ⟨i,⟨⟩,rfl,found⟩ := current
  rw [← whole] at listed pages nodup
  dsimp only [Cursor.heap,pageNos_append] at listed pages nodup
  rw [pageNos_append,pageNos_cons] at pages nodup
  have off_after : p ∉ pageNos after := (List.nodup_cons.mp (List.nodup_append.mp nodup).2.1).1
  constructor
  · rintro ahead ⟨rfl,below⟩
    rcases List.mem_append.mp ahead with on_page | later
    · obtain ⟨⟨s,v⟩,live,same⟩ := List.mem_map.mp on_page
      cases same
      have above : i + 1 ≤ s := (mem_liveFrom.mp live).1
      dsimp only at below
      omega
    · exact off_after (records_pageNo later)
  · intro above
    rw [records_append,records_cons,List.mem_append,List.mem_append] at listed
    rcases listed with early | on_page | later
    · -- The pages before this one have no room for anything new.
      refine absurd ?_ (grown.late _ inside)
      rw [pageNos,List.map_dropLast]
      exact early_items pages nodup (records_pageNo old) (records_pageNo early)
    · obtain ⟨s,same,live⟩ := mem_pageRecords.mp on_page
      cases same
      have from_next : i + 1 ≤ s := by
        have not_below : ¬ (s : Int) < i := fun below => above ⟨rfl,below⟩
        have not_same : s ≠ i := fun same => other (by rw [same])
        omega
      exact List.mem_append_left _ (List.mem_map.mpr ⟨(s,bytes),mem_liveFrom.mpr ⟨from_next,live⟩,rfl⟩)
    · exact List.mem_append_right _ later

end Heap

-- The pages that a scan has in front of it: those of the file that grows when it is that one.
def Tail.seen (t : Tail) (own : Bool) (other : Heap) : Heap := if own then t.heap else other

-- How a cursor comes through an insert into a file that may be the one it stands on.
structure Tail.Watched (own : Bool) (other : Heap) (t' : Tail) (bytes : List UInt8) (result : Except Status RID)
    (c c' : Cursor) : Prop where
  whole : c'.heap = t'.seen own other
  follows : c.Follows bytes result c'
  still : own = false → c' = c

theorem Tail.Takes.watched {t t' : Tail} {bytes : List UInt8} {result : Except Status RID} {own : Bool} {other : Heap}
    {c : Cursor} (takes : t.Takes bytes result t') (whole : c.heap = t.seen own other) :
    ∃ c', Tail.Watched own other t' bytes result c c' := by
  cases own with
  | false => exact ⟨c,whole,c.follows_same bytes result,fun _ => rfl⟩
  | true =>
    obtain ⟨c',whole',follows⟩ := Cursor.lands takes whole
    exact ⟨c',whole',follows,nofun⟩

-- An open scan and an open object that inserts, over files of a directory that may be one and the same.
structure Filling (base : Shelf) (source result : Name) (other : Heap) (firstS firstR : Int) (t : Tail) (c : Cursor)
    (db : Db) (s : HeapFileScan) (rel : InsertFileScan) : Prop where
  stands : db.Stands (((base.refill result t.heap t.recCnt).withInsert result rel t.last).withScan source s c)
  scan : s.At firstS c
  insert : rel.At firstR t.last
  whole : c.heap = t.seen (source = result) other
  nodup : (pageNos t.heap).Nodup

namespace Filling

variable {base : Shelf} {source result : Name} {other heap : Heap} {firstS firstR : Int} {t : Tail} {c : Cursor}
  {db : Db} {s : HeapFileScan} {rel : InsertFileScan} {bytes : List UInt8}

-- What another object finds a file to be in the meantime.
theorem shows_seen (at_result : base.Shows result firstR heap) {name : Name} {first : Int} {pages : Heap}
    (at_name : base.Shows name first pages) (rel : InsertFileScan) (t : Tail) :
    ((base.refill result t.heap t.recCnt).withInsert result rel t.last).Shows name first
    (t.seen (name = result) pages) := by
  rw [Tail.seen]
  by_cases same : name = result
  · subst same
    rw [if_pos (decide_eq_true rfl),(at_name.unique at_result).1]
    exact (at_result.refill _ _).withInsert _ _ _
  · rw [if_neg (by simpa using same)]
    exact (at_name.refill_other same _ _).withInsert _ _ _

theorem shows_source (at_source : base.Shows source firstS other) (at_result : base.Shows result firstR heap)
    (filling : Filling base source result other firstS firstR t c db s rel) :
    ((base.refill result t.heap t.recCnt).withInsert result rel t.last).Shows source firstS c.heap := by
  rw [filling.whole]
  exact shows_seen at_result at_source rel t

theorem next (owned : base.Owned) (at_source : base.Shows source firstS other)
    (at_result : base.Shows result firstR heap)
    (filling : Filling base source result other firstS firstR t c db s rel) {cond : Option Condition}
    (filter : s.filter = cond) :
    ∃ next s' c' db', db.scanNext source s = .ok (next,s',db') ∧
      Filling base source result other firstS firstR t c' db' s' rel ∧ s'.filter = cond ∧
      ((next = .error .fileEof ∧ (c.remaining.filter fun e => HeapFileScan.accepts cond e.2) = []) ∨
        ∃ e, next = .ok e.1 ∧ e ∈ c.remaining ∧ c'.Current e ∧ db'.getRecord source s' = .ok (.ok (.of e.2)) ∧
          (c.remaining.filter fun e => HeapFileScan.accepts cond e.2) =
            e::c'.remaining.filter fun e => HeapFileScan.accepts cond e.2) := by
  obtain ⟨next,s',c',db',ran,stands,scan,whole,same,found⟩ := filling.stands.next_record
    ((owned.refill _ _ _).withInsert _ _ _) (filling.shows_source at_source at_result) filling.scan
  have filter' : s'.filter = cond := same.trans filter
  have judged : ∀ {s : HeapFileScan}, s.filter = cond → (fun e : Entry => s.matchRec (.of e.2)) =
      fun e => HeapFileScan.accepts cond e.2 := fun same => funext fun e => HeapFileScan.matchRec_accepts same e.2
  refine ⟨next,s',c',db',ran,⟨stands,scan,filling.insert,whole.trans filling.whole,filling.nodup⟩,filter',?_⟩
  rcases found with ⟨rfl,passed⟩ | ⟨skipped,bytes,rfl,remaining,passed,accepted,current,read⟩
  · exact .inl ⟨rfl,by rw [← judged filter]; exact HeapFileScan.filter_passed passed⟩
  · have next := HeapFileScan.filter_next remaining passed accepted same
    rw [judged filter,judged filter'] at next
    exact .inr ⟨(s'.curRec,bytes),rfl,by rw [remaining]; simp,current,read,next⟩

theorem insertRecord (owned : base.Owned)
    (at_result : base.Shows result firstR heap)
    (filling : Filling base source result other firstS firstR t c db s rel) (positive : bytes ≠ []) :
    ∃ inserted rel' db' t' c', db.insertRecord result rel (.of bytes) = .ok (inserted,rel',db') ∧
      t.Takes bytes inserted t' ∧ Tail.Watched (source = result) other t' bytes inserted c c' ∧
      Filling base source result other firstS firstR t' c' db' s rel' := by
  have stands := filling.stands
  rw [Shelf.withInsert_withScan] at stands
  obtain ⟨inserted,rel',db',recCnt',before',n',d',ran,stands',insert,lands,nodup⟩ := stands.land_record
    ((owned.refill _ _ _).withScan _ _ _) ((at_result.refill t.heap t.recCnt).withScan source s c) filling.insert
    positive
  have takes : t.Takes bytes inserted ⟨before',n',d',recCnt'⟩ := lands
  obtain ⟨c',watched⟩ := takes.watched filling.whole
  have follows := watched.follows
  refine ⟨inserted,rel',db',⟨before',n',d',recCnt'⟩,c',ran,lands,watched,?_,?_,insert,watched.whole,nodup⟩
  · rw [Shelf.withScan_refill,Shelf.refill_refill,← Shelf.withInsert_withScan] at stands'
    rw [Shelf.withScan,follows.pageNo]
    exact stands'
  · obtain ⟨header,headerNo,cur,curNo,slot⟩ := filling.scan
    exact ⟨header,headerNo,by rw [follows.pageNo]; exact cur,by rw [follows.pageNo]; exact curNo,
      by rw [follows.next]; exact slot⟩

end Filling
end Minirel
