import Minirel.HeapInsert

namespace Minirel
open ByteMemory SlotDirectory Page Heap

-- What a file has gained over an earlier state: its earlier records are all there, in their order,
-- and the others come in the order of `new`.
structure Gains (heap heap' : Heap) (new : List (List UInt8)) : Prop where
  kept : (records heap').filter (fun e => e.1 ∈ (records heap).map Prod.fst) = records heap
  gained : ((records heap').filter fun e => e.1 ∉ (records heap).map Prod.fst).map Prod.snd = new

theorem Gains.none (heap : Heap) : Gains heap heap [] := by
  have present : ∀ e ∈ records heap, e.1 ∈ (records heap).map Prod.fst := fun e member => List.mem_map_of_mem member
  refine ⟨List.filter_eq_self.mpr fun e member => decide_eq_true (present e member),?_⟩
  rw [List.filter_eq_nil_iff.mpr fun e member => by simpa using present e member]
  rfl

theorem Gains.mem {heap heap' : Heap} {new : List (List UInt8)} (gains : Gains heap heap' new) {e : Entry}
    (member : e ∈ records heap) :
    e ∈ records heap' := by
  rw [← gains.kept] at member
  exact List.mem_of_mem_filter member

-- What holds of the records there were and of those that have come holds of all.
theorem Gains.forall_records {heap heap' : Heap} {new : List (List UInt8)} {P : List UInt8 → Prop}
    (gains : Gains heap heap' new)
    (nodup : ((records heap').map Prod.fst).Nodup) (old : ∀ e ∈ records heap, P e.2) (gained : ∀ row ∈ new, P row) :
    ∀ e ∈ records heap', P e.2 := by
  intro e member
  by_cases before : e.1 ∈ (records heap).map Prod.fst
  · obtain ⟨e',inside,same⟩ := List.mem_map.mp before
    have one : e' = e := List.inj_on_of_nodup_map nodup (gains.mem inside) member same
    exact old e (one ▸ inside)
  · apply gained
    rw [← gains.gained]
    exact List.mem_map_of_mem (List.mem_filter.mpr ⟨member,decide_eq_true before⟩)

-- A file that had no records has those it has gained.
theorem Gains.all {heap heap' : Heap} {new : List (List UInt8)} (gains : Gains heap heap' new)
    (nothing : records heap = []) :
    (records heap').map Prod.snd = new := by
  rw [← gains.gained,nothing,List.filter_eq_self.mpr]
  intro e _
  simp

-- On the last page every slot above the lowest free one holds a record of the earlier state, so
-- the next record goes behind all that were gained before.
structure Appending (heap before : Heap) (n : Int) (d : Slots) (new : List (List UInt8)) : Prop where
  gains : Gains heap (before ++ [(n,d)]) new
  packed : ∀ i bytes, firstFree d < i → lookup d i = some bytes → ⟨n,i⟩ ∈ (records heap).map Prod.fst

variable {heap before : Heap} {n : Int} {d : Slots} {new : List (List UInt8)}

theorem Appending.start (split : heap = before ++ [(n,d)]) : Appending heap before n d [] := by
  subst split
  refine ⟨Gains.none _,fun i bytes _ found => List.mem_map.mpr ⟨(⟨n,i⟩,bytes),?_,rfl⟩⟩
  rw [records_append,records_cons]
  exact List.mem_append_right _ (List.mem_append_left _ (mem_pageRecords.mpr ⟨i,rfl,found⟩))

theorem Appending.link (appending : Appending heap before n d new) (m : Int) :
    Appending heap (before ++ [(n,d)]) m [] new := by
  refine ⟨⟨?_,?_⟩,fun i bytes _ found => by cases found⟩
  · rw [records_linked]
    exact appending.gains.kept
  · rw [records_linked]
    exact appending.gains.gained

-- The lowest free slot of the last page belongs to no record, so to none of the earlier state.
theorem Appending.fresh (appending : Appending heap before n d new) (nodup : (pageNos (before ++ [(n,d)])).Nodup) :
    (⟨n,firstFree d⟩ : RID) ∉ (records heap).map Prod.fst := by
  intro old
  obtain ⟨⟨rid,bytes⟩,member,same⟩ := List.mem_map.mp old
  cases same
  have member := appending.gains.mem member
  rw [records_append,records_cons,records_nil,List.append_nil,List.mem_append] at member
  cases member with
  | inl earlier =>
    obtain ⟨⟨m,e⟩,inside,here⟩ := List.mem_flatMap.mp earlier
    obtain ⟨i,same,_⟩ := mem_pageRecords.mp here
    have same : n = m := congrArg RID.pageNo same
    rw [pageNos_append,List.nodup_append] at nodup
    exact nodup.2.2 m (List.mem_map.mpr ⟨(m,e),inside,rfl⟩) n (List.mem_cons_self ..) same.symm
  | inr here =>
    obtain ⟨i,same,found⟩ := mem_pageRecords.mp here
    have same : firstFree d = i := by simpa using same
    rw [← same,lookup_firstFree] at found
    cases found

theorem Appending.put (appending : Appending heap before n d new) (nodup : (pageNos (before ++ [(n,d)])).Nodup)
    (bytes : List UInt8) :
    Appending heap before n (put d bytes) (new ++ [bytes]) := by
  have fresh := appending.fresh nodup
  obtain ⟨low,high,entries_d,entries_put,_,above⟩ := entries_put d bytes
  have there := appending.gains.kept
  have gained := appending.gains.gained
  rw [records_append,records_cons,records_nil,List.append_nil,pageRecords,entries_d,List.map_append,← List.append_assoc,
    List.filter_append] at there gained
  -- Above the new record there are only records of the earlier state.
  have old : ∀ e ∈ high.map (fun e => ((⟨n,e.1⟩,e.2) : Entry)), e.1 ∈ (records heap).map Prod.fst := by
    intro e member
    obtain ⟨⟨i,v⟩,inside,rfl⟩ := List.mem_map.mp member
    refine appending.packed i v (above _ inside) (mem_entries.mp ?_)
    rw [entries_d]
    exact List.mem_append_right _ inside
  have none_gained : (high.map fun e => ((⟨n,e.1⟩,e.2) : Entry)).filter (fun e => e.1 ∉ (records heap).map Prod.fst) =
      [] :=
    List.filter_eq_nil_iff.mpr fun e member => by simpa using old e member
  have split : records (before ++ [(n,SlotDirectory.put d bytes)]) =
    (records before ++ low.map fun e => ((⟨n,e.1⟩,e.2) : Entry)) ++
      (⟨n,firstFree d⟩,bytes)::high.map fun e => (⟨n,e.1⟩,e.2) := by
    rw [records_append,records_cons,records_nil,List.append_nil,pageRecords,entries_put,List.map_append,
      ← List.append_assoc]
    rfl
  refine ⟨⟨?_,?_⟩,?_⟩
  · rw [split,List.filter_append,List.filter_cons_of_neg (by simpa using fresh)]
    exact there
  · rw [split,List.filter_append,List.filter_cons_of_pos (by simpa using fresh),none_gained]
    rw [none_gained,List.append_nil] at gained
    rw [List.map_append,gained]
    rfl
  · intro i v less found
    have more := Nat.lt_trans (firstFree_put d bytes) less
    rw [lookup_put,if_neg (Nat.ne_of_gt more)] at found
    exact appending.packed i v more found

namespace InsertFileScan

variable {k : Pool.Books} {recCnt : Int} {b : Pool} {s : InsertFileScan}

-- A record is gained behind all the others, or the call fails and nothing is.
theorem insertRecord_appends {bytes : List UInt8} (owned : k.Owned) (positive : bytes ≠ [])
    (int : bytes.length < 2 ^ 31)
    (inserting : Inserting k recCnt b s before n d) (appending : Appending heap before n d new) :
    ∃ result s' b' recCnt' before' n' d', insertRecord b s (.of bytes) = .ok (result,s',b') ∧
      Inserting k recCnt' b' s' before' n' d' ∧
      ((∃ rid, result = .ok rid ∧ Appending heap before' n' d' (new ++ [bytes])) ∨
        ∃ status, status ≠ .ok ∧ result = .error status ∧ Appending heap before' n' d' new) := by
  have inserts := inserting.insertRecord_spec owned positive int
  generalize insertRecord b s (.of bytes) = outcome at inserts
  cases inserts with
  | here b' s' done =>
    exact ⟨_,s',b',_,before,n,_,rfl,done,.inl ⟨_,rfl,appending.put inserting.stored.nodup bytes⟩⟩
  | newPage b' s' m done =>
    have nodup := done.stored.nodup
    rw [pageNos_append] at nodup
    refine ⟨_,s',b',_,_,m,_,rfl,done,.inl ⟨_,rfl,(appending.link m).put ?_ bytes⟩⟩
    rw [pageNos_append]
    exact nodup
  | refused b' s' status why still =>
    refine ⟨_,s',b',_,before,n,d,rfl,still,.inr ⟨status,?_,rfl,appending⟩⟩
    rcases why with rfl | ⟨rfl,_⟩ <;> exact Status.noConfusion
  | tooLong b' s' m _ still =>
    exact ⟨_,s',b',_,_,m,[],rfl,still,.inr ⟨.noSpace,Status.noConfusion,rfl,appending.link m⟩⟩

theorem insertAll_appends {recs : List (List UInt8)} (ledger : List Entry) (owned : k.Owned)
    (storable : ∀ bytes ∈ recs, Storable bytes)
    (inserting : Inserting k recCnt b s before n d) (appending : Appending heap before n d new) :
    ∃ told recCnt' b' s' before' n' d', insertAll recs b s ledger = .ok (ledger ++ told,s',b') ∧
      Inserting k recCnt' b' s' before' n' d' ∧
      Appending heap before' n' d' (new ++ told.map Prod.snd) := by
  induction recs generalizing recCnt b s before n d ledger new with
  | nil =>
    refine ⟨[],recCnt,b,s,before,n,d,?_,inserting,?_⟩
    · rw [List.append_nil]
      rfl
    · rw [List.map_nil,List.append_nil]
      exact appending
  | cons bytes rest ih =>
    obtain ⟨positive,int⟩ := storable bytes (List.mem_cons_self ..)
    have later : ∀ bytes ∈ rest, Storable bytes := fun bytes member => storable bytes (List.mem_cons_of_mem _ member)
    obtain ⟨result,s1,b1,recCnt1,before1,n1,d1,ran,inserting1,outcome⟩ :=
      insertRecord_appends owned (List.ne_nil_of_length_pos positive) int inserting appending
    rw [insertAll,ran,ok_bind]
    rcases outcome with ⟨rid,rfl,appending1⟩ | ⟨status,_,rfl,appending1⟩
    · obtain ⟨told,recCnt2,b2,s2,before2,n2,d2,done,inserting2,appending2⟩ :=
        ih (ledger ++ [(rid,bytes)]) later inserting1 appending1
      refine ⟨(rid,bytes)::told,recCnt2,b2,s2,before2,n2,d2,?_,inserting2,?_⟩
      · dsimp only
        rw [done,List.append_assoc]
        rfl
      · rw [List.append_assoc] at appending2
        exact appending2
    · exact ih _ later inserting1 appending1

theorem session_gains {recs : List (List UInt8)} (owned : k.Owned) (kept : b.Keeps k)
    (stored : Stored b.view k.first heap recCnt)
    (s : InsertFileScan) (storable : ∀ bytes ∈ recs, Storable bytes) :
    ∃ told recCnt' heap' b', session b s recs [] = .ok (told,b') ∧ b'.Keeps k ∧ Stored b'.view k.first heap' recCnt' ∧
      Gains heap heap' (told.map Prod.snd) := by
  obtain ⟨b1,opened,kept1,view1⟩ := kept.openFile
  have owned' : k.opened.Owned := owned
  obtain ⟨b2,s2,before,n,d,constructed,split,inserting,_⟩ := construct_spec owned' kept1 (by rw [view1]; exact stored) s
  obtain ⟨told,recCnt',b3,s3,before',n',d',done,inserting',appending⟩ :=
    insertAll_appends [] owned' storable inserting (Appending.start split)
  obtain ⟨kept4,view4⟩ := destroy_spec owned inserting'
  refine ⟨told,recCnt',before' ++ [(n',d')],destroy b3 s3,?_,kept4,
    by rw [view4]; exact inserting'.stored,appending.gains⟩
  simp only [session,opened,constructed,ok_bind,done]
  rfl

end InsertFileScan

-- A new heap file with these records, and what was told of them.
def loadedFile (stale : Int → Page) (name : Name) (recs : List (List UInt8)) : Except Abort (List Entry × Pool) := do
  let (_,b) ← (Pool.created stale).createHeapFile name
  InsertFileScan.session b ⟨HeapFile.fresh 0 0⟩ recs []

theorem loadedFile_spec (stale : Int → Page) (name : Name) {recs : List (List UInt8)}
    (storable : ∀ bytes ∈ recs, InsertFileScan.Storable bytes) :
    ∃ told hdr heap recCnt b, loadedFile stale name recs = .ok (told,b) ∧
      b.Keeps {Pool.Books.unused with first := hdr} ∧
      Stored b.view hdr heap recCnt ∧ (records heap).map Prod.snd = told.map Prod.snd := by
  obtain ⟨hdr,n,b,created,kept,stored⟩ := createHeapFile_spec stale name
  have owned : ({Pool.Books.unused with first := hdr} : Pool.Books).Owned := fun _ marked => False.elim marked
  obtain ⟨told,recCnt,heap,b',inserted,kept',stored',gains⟩ :=
    InsertFileScan.session_gains owned kept stored ⟨HeapFile.fresh 0 0⟩ storable
  refine ⟨told,hdr,heap,recCnt,b',?_,kept',stored',gains.all rfl⟩
  rw [loadedFile,created,ok_bind]
  exact inserted

end Minirel
