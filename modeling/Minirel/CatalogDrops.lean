import Minirel.CatalogGains

namespace Minirel
open ByteMemory SlotDirectory Page Heap

variable {db : Db} {relation : Name} {k : Pool.Books} {heap : Heap} {recCnt : Int}

-- A catalog without one of its rows.
def Without (heap heap' : Heap) (rid : RID) : Prop := records heap' = (records heap).filter fun e => e.1 ≠ rid

theorem Without.rows {heap' : Heap} {e : Entry} {rest : List Entry} (without : Without heap heap' e.1)
    (nodup : ((records heap).map Prod.fst).Nodup)
    (first : rows heap relation = e::rest) : Minirel.rows heap' relation = rest := by
  have inside : ((e::rest).map Prod.fst).Nodup := by
    rw [← first]
    exact nodup.sublist (List.filter_sublist.map _)
  rw [List.map_cons,List.nodup_cons] at inside
  rw [Minirel.rows,without,List.filter_comm]
  refine (congrArg _ first).trans ?_
  rw [List.filter_cons_of_neg (by simp)]
  refine List.filter_eq_self.mpr fun e' member => decide_eq_true ?_
  intro same
  exact inside.1 (same ▸ List.mem_map_of_mem member)

theorem Without.rest {heap' : Heap} {rid : RID} (without : Without heap heap' rid) {keep : Entry → Bool}
    (dropped : ∀ e ∈ records heap, e.1 = rid → keep e = false) : (records heap').filter keep =
    (records heap).filter keep := by
  rw [without,List.filter_filter]
  refine List.filter_congr fun e member => ?_
  by_cases here : e.1 = rid
  · rw [dropped e member here,Bool.false_and]
  · rw [decide_eq_true here,Bool.and_true]

theorem Without.wide {heap' : Heap} {rid : RID} {size : Nat} (without : Without heap heap' rid)
    (wide : Rows heap size) : Rows heap' size := by
  intro e member
  rw [without] at member
  exact wide e (List.mem_of_mem_filter member)

-- Deleting gives no page back.
theorem deleteRecord_file {b b' : Pool} {s s' : HeapFileScan} {status : Status}
    (ran : HeapFileScan.deleteRecord b s = .ok (status,s',b')) :
    b'.file = b.file := by
  rw [HeapFileScan.deleteRecord] at ran
  obtain ⟨page,_,ran⟩ := of_bind_ok ran
  obtain ⟨header,_,ran⟩ := of_bind_ok ran
  cases ran
  rw [Pool.assign_file,Pool.assign_file]

-- The row a method of a catalog stands on goes, and the scan is closed.
theorem delete_standing (db : Db) (catalog : Name) {b : Pool} {s : HeapFileScan} {c : Cursor} {e : Entry}
    (scanning : HeapFileScan.Scanning k.opened recCnt b s c) (whole : c.heap = heap) (current : c.Current e)
    (rid : s.curRec = e.1) :
    ∃ s' b' c' recCnt', (db.setPool catalog b).deleteRecord catalog s = .ok (.ok,s',db.setPool catalog b') ∧
      HeapFileScan.Scanning k.opened recCnt' b' s' c' ∧ Without heap c'.heap e.1 ∧ b'.file = b.file := by
  obtain ⟨b',s',c',deleted,scanning',_,_,_,left,_⟩ := HeapFileScan.deleteRecord_live scanning current rid
  rw [whole] at left
  exact ⟨s',b',c',_,Db.deleteRecord_at deleted,scanning',left,deleteRecord_file deleted⟩

-- A relation without rows has none to lose.
theorem rows_none (nothing : rows heap relation = []) :
    records heap = (records heap).filter fun e => ¬ OfRelation relation e.2 := by
  refine (List.filter_eq_self.mpr fun e member => ?_).symm
  have foreign : ¬ OfRelation relation e.2 := by
    intro own
    have there := mem_rows.mpr ⟨member,own⟩
    rw [nothing] at there
    cases there
  simpa using foreign

namespace AttrCatalog

theorem removeInfo_spec {e : Entry} {rest : List Entry} (holds : db.Holds attrCatName k heap recCnt)
    (wide : Rows heap AttrDesc.size)
    (clean : 0 ∉ relation) (given : relation ≠ []) (first : rows heap relation = e::rest)
    (attr_given : (AttrDesc.ofBytes e.2).attrName ≠ []) :
    ∃ b heap' recCnt', removeInfo db relation (AttrDesc.ofBytes e.2).attrName = .ok (.ok,db.setPool attrCatName b) ∧
      (db.setPool attrCatName b).Holds attrCatName k heap' recCnt' ∧ Without heap heap' e.1 ∧
      b.file.length = db.length attrCatName := by
  obtain ⟨old,there,kept_old,_⟩ := holds.2.2
  obtain ⟨b1,s1,status,b2,s2,c,opened,scanned,scanning,whole,rests,view2⟩ :=
    rows_scanned_view holds there clean (wide.width relation) (takeNamed (AttrDesc.ofBytes e.2).attrName) ⟨[],[],0,0,0⟩
  have found : (rows heap relation).find? (fun r => (AttrDesc.ofBytes r.2).attrName =
      (AttrDesc.ofBytes e.2).attrName) = some e := by
    rw [first]
    exact List.find?_cons_of_pos (decide_eq_true rfl)
  rw [(walk_takeNamed ..).2,found] at rests
  obtain ⟨rfl,current,rid⟩ := rests
  obtain ⟨s3,b3,c3,recCnt3,deleted,scanning3,without,file3⟩ := delete_standing db attrCatName scanning whole current rid
  obtain ⟨s4,b4,b5,ended,closed,kept5,view5⟩ := db.end_spec attrCatName holds.2.1 scanning3
  have given' : ¬ (relation = [] ∨ (AttrDesc.ofBytes e.2).attrName = []) := fun empty => empty.elim given attr_given
  have length : b5.file.length = db.length attrCatName := by
    rw [scanning3.kept.length_of_view kept5 view5,file3,kept_old.length_of_view scanning.kept view2,
      Db.length_found there]
  refine ⟨b5,c3.heap,recCnt3,?_,Db.holds_setPool holds.1 holds.2.1 kept5 (by rw [view5]; exact scanning3.stored),
    without,length⟩
  rw [removeInfo,if_neg given',opened,ok_bind]
  dsimp only
  rw [if_neg (not_not_intro rfl),scanned,ok_bind]
  dsimp only
  rw [deleted,ok_bind]
  dsimp only
  rw [ended,ok_bind]
  dsimp only
  rw [closed]
  rfl

-- The attributes that getRelInfo has listed go one by one, always the first that is left.
theorem removeAll_spec {es : List Entry} (holds : db.Holds attrCatName k heap recCnt) (wide : Rows heap AttrDesc.size)
    (clean : 0 ∉ relation)
    (given : relation ≠ []) (listed : rows heap relation = es)
    (attrs_given : ∀ e ∈ es, (AttrDesc.ofBytes e.2).attrName ≠ []) :
    ∃ b heap' recCnt', removeAll relation (es.map fun e => AttrDesc.ofBytes e.2) db =
      .ok (.ok,db.setPool attrCatName b) ∧
      (db.setPool attrCatName b).Holds attrCatName k heap' recCnt' ∧
      (records heap' = (records heap).filter fun e => ¬ OfRelation relation e.2) ∧ b.file.length = db.length attrCatName := by
  induction es generalizing db heap recCnt with
  | nil =>
    obtain ⟨_,_,b,found,_,_⟩ := id holds
    refine ⟨b,heap,recCnt,by rw [Db.setPool_self found]; rfl,by rw [Db.setPool_self found]; exact holds,rows_none listed,?_⟩
    exact (Db.length_found found).symm
  | cons e rest ih =>
    obtain ⟨b1,heap1,recCnt1,removed,holds1,without,length1⟩ :=
      removeInfo_spec holds wide clean given listed (attrs_given e (List.mem_cons_self ..))
    obtain ⟨_,_,_,_,_,stored⟩ := holds
    have nodup := records_keys_nodup stored.nodup
    have here : e ∈ records heap ∧ OfRelation relation e.2 := mem_rows.mp (by rw [listed]; exact List.mem_cons_self ..)
    obtain ⟨b2,heap2,recCnt2,done,holds2,left,length2⟩ := ih holds1 (without.wide wide) (without.rows nodup listed)
      fun e' member => attrs_given e' (List.mem_cons_of_mem _ member)
    rw [Db.setPool_setPool] at done holds2
    rw [Db.length_setPool] at length2
    refine ⟨b2,heap2,recCnt2,?_,holds2,left.trans (without.rest fun e' member same => ?_),length2.trans length1⟩
    · rw [List.map_cons,removeAll,removed,ok_bind]
      dsimp only
      rw [if_neg (not_not_intro rfl)]
      exact done
    · rw [List.inj_on_of_nodup_map nodup member here.1 same]
      exact decide_eq_false (not_not_intro here.2)

theorem dropRelation_spec (holds : db.Holds attrCatName k heap recCnt) (wide : Rows heap AttrDesc.size)
    (clean : 0 ∉ relation)
    (given : relation ≠ []) (attrs_given : ∀ d ∈ attributes heap relation, d.attrName ≠ []) :
    ∃ b heap' recCnt', dropRelation db relation =
        .ok (if attributes heap relation = [] then .relNotFound else .ok,db.setPool attrCatName b) ∧
      (db.setPool attrCatName b).Holds attrCatName k heap' recCnt' ∧
      (records heap' = (records heap).filter fun e => ¬ OfRelation relation e.2) ∧
      b.file.length = db.length attrCatName := by
  obtain ⟨old,there,kept_old,_⟩ := holds.2.2
  obtain ⟨b1,asked,holds1,view1⟩ := getRelInfo_view holds there wide clean given
  have length1 : b1.file.length = db.length attrCatName := by
    obtain ⟨_,_,b,found,kept1,_⟩ := holds1
    rw [Db.setPool_same] at found
    cases found
    rw [kept_old.length_of_view kept1 view1,Db.length_found there]
  obtain ⟨b2,heap2,recCnt2,done,holds2,left,length2⟩ := removeAll_spec holds1 wide clean given rfl fun e member =>
    attrs_given _ (List.mem_map_of_mem member)
  rw [Db.setPool_setPool] at done holds2
  rw [dropRelation,if_neg given,asked,ok_bind]
  dsimp only
  by_cases none_listed : attributes heap relation = []
  · rw [if_pos none_listed,if_pos (by decide)]
    exact ⟨b1,heap,recCnt,rfl,holds1,rows_none (List.map_eq_nil_iff.mp none_listed),length1⟩
  · rw [if_neg none_listed,if_neg (not_not_intro rfl)]
    rw [Db.length_setPool] at length2
    exact ⟨b2,heap2,recCnt2,done,holds2,left,length2.trans length1⟩

end AttrCatalog

namespace RelCatalog

theorem removeInfo_spec {e : Entry} {rest : List Entry} (holds : db.Holds relCatName k heap recCnt)
    (clean : 0 ∉ relation)
    (given : relation ≠ []) (first : rows heap relation = e::rest) :
    ∃ b heap' recCnt', removeInfo db relation = .ok (.ok,db.setPool relCatName b) ∧
      (db.setPool relCatName b).Holds relCatName k heap' recCnt' ∧ Without heap heap' e.1 ∧
      b.file.length = db.length relCatName := by
  have owned : k.opened.Owned := holds.2.1
  obtain ⟨old,there,kept_old,_⟩ := holds.2.2
  obtain ⟨b1,s1,c1,opened,scanning,whole,all,filter,view1⟩ := openRows_view holds there relation
  obtain ⟨b2,s2,c2,moves,finds⟩ := HeapFileScan.scanNext_spec owned scanning
  have wanted : c1.remaining.filter (fun e => s1.matchRec (.of e.2)) = e::rest := by
    rw [all,← first,← filter_named clean]
    refine List.filter_congr fun e _ => ?_
    rw [HeapFileScan.matchRec_accepts filter]
  generalize found : HeapFileScan.scanNext b1 s1 = outcome at finds
  cases finds with
  | eof passed done =>
    rw [HeapFileScan.filter_passed passed] at wanted
    cases wanted
  | record skipped bytes remaining passed accepted current =>
    rw [HeapFileScan.filter_next remaining passed accepted rfl] at wanted
    obtain ⟨rfl,_⟩ := List.cons.inj wanted
    obtain ⟨s3,b3,c3,recCnt3,deleted,scanning3,without,file3⟩ :=
      delete_standing db relCatName moves.scanning (moves.heap.trans whole) current rfl
    obtain ⟨b4,closed,kept4,view4⟩ := db.delete_spec relCatName holds.2.1 scanning3
    have length : b4.file.length = db.length relCatName := by
      rw [scanning3.kept.length_of_view kept4 view4,file3,kept_old.length_of_view moves.scanning.kept
        (moves.view.trans view1),
        Db.length_found there]
    refine ⟨b4,c3.heap,recCnt3,?_,Db.holds_setPool holds.1 holds.2.1 kept4 (by rw [view4]; exact scanning3.stored),
      without,length⟩
    rw [removeInfo,if_neg given,opened,ok_bind]
    dsimp only
    rw [if_neg (not_not_intro rfl),Db.scanNext_at found,ok_bind]
    dsimp only
    rw [deleted,ok_bind]
    dsimp only
    rw [closed,ok_bind,Db.endDeletedScan_ok]
    rfl

end RelCatalog
end Minirel
