import Minirel.Derivation
import Minirel.PartialWork

namespace Minirel
open ByteMemory SlotDirectory Page Heap Turns

-- A loop that makes a tuple of every record its scan comes to and inserts that. Where it has a status to
-- return it may return that of a refused insert.
structure Feeds (l : Loop (Db × HeapFileScan × InsertFileScan) Status Status Abort) (source result : Name)
    (output : Record → Except Abort (List UInt8)) : Prop where
  next : ∀ {db db' s s' next} (rel), db.scanNext source s = .ok (next,s',db') →
    l.next (db,s,rel) = .ok (failure next,db',s',rel)
  aborts : ∀ {db s rec a} (rel), db.getRecord source s = .ok (.ok rec) → output rec = .error a →
    l.body (db,s,rel) = .error a
  inserts : ∀ {db db' s rel rel' rec data rid}, db.getRecord source s = .ok (.ok rec) → output rec = .ok data →
    db.insertRecord result rel (.of data) = .ok (.ok rid,rel',db') → l.body (db,s,rel) = .ok (none,db',s,rel')
  fails : ∀ {db db' s rel rel' rec data status}, db.getRecord source s = .ok (.ok rec) → output rec = .ok data →
    db.insertRecord result rel (.of data) = .ok (.error status,rel',db') →
    l.body (db,s,rel) = .error .exit ∨ l.body (db,s,rel) = .ok (some status,db',s,rel')

theorem selectTurns_feeds (source result : Name) (attrs : List AttrDesc) :
    Feeds (selectTurns source result attrs) source result fun rec => project rec attrs := by
  constructor
  case next =>
    intro db db' s s' next rel moved
    simp only [selectTurns,scanTurn,moved,ok_bind]
    rfl
  case aborts =>
    intro db s rec a rel read failed
    simp only [selectTurns,read,ok_bind,failed]
    rfl
  case inserts =>
    intro db db' s rel rel' rec data rid read made inserted
    simp only [selectTurns,read,ok_bind,made,inserted]
    rfl
  case fails =>
    intro db db' s rel rel' rec data status read made refused
    right
    simp only [selectTurns,read,ok_bind,made,refused]
    rfl

theorem innerTurns_feeds (inner result outerName : Name) (attrs : List AttrDesc) (outerRec : Record) :
    Feeds (innerTurns inner result outerName attrs outerRec) inner result fun rec =>
      joinRecord outerName outerRec rec attrs := by
  constructor
  case next =>
    intro db db' s s' next rel moved
    simp only [innerTurns,scanTurn,moved,ok_bind]
    rfl
  case aborts =>
    intro db s rec a rel read failed
    simp only [innerTurns,read,ok_bind,failed]
    rfl
  case inserts =>
    intro db db' s rel rel' rec data rid read made inserted
    simp only [innerTurns,read,ok_bind,made,inserted]
    rfl
  case fails =>
    intro db db' s rel rel' rec data status read made refused
    left
    simp only [innerTurns,read,ok_bind,made,refused]
    rfl

-- An open scan and an open object that inserts, as a query has them for an outer record of its own.
structure Feeding (q : Derivation) (base : Shelf) (source result : Name) (firstS firstR : Int) (cond : Option Condition)
    (o : Entry) (t : Tail) (co c : Cursor) (state : Db × HeapFileScan × InsertFileScan) : Prop where
  filling : Filling base source result q.inner firstS firstR t c state.1 state.2.1 state.2.2
  filter : state.2.1.filter = cond
  places : q.Places t o co c

section feeding

variable {q : Derivation} {base : Shelf} {source result : Name} {firstS firstR : Int} {cond : Option Condition}
  {o : Entry} {t : Tail} {co c : Cursor} {state : Db × HeapFileScan × InsertFileScan}
  {l : Loop (Db × HeapFileScan × InsertFileScan) Status Status Abort} {output : Record → Except Abort (List UInt8)}

-- The files of a query, of which the one that its innermost scan reads may be the result.
structure FeedingFiles (q : Derivation) (base : Shelf) (source result : Name) (firstS firstR : Int) : Prop where
  sound : q.Sound
  positive : q.pairs ≠ [] → q.width ≠ 0
  own : q.fromInner = decide (source = result)
  owned : base.Owned
  at_source : base.Shows source firstS q.inner
  at_result : base.Shows result firstR q.result

-- What the loop makes of the records is what the query derives of them.
structure Derives (q : Derivation) (cond : Option Condition) (o : Entry) (output : Record → Except Abort (List UInt8)) :
    Prop where
  chooses : ∀ bytes, q.accepts o.2 bytes = HeapFileScan.accepts cond bytes
  makes : ∀ bytes data, output (.of bytes) = .ok data → data = q.output o.2 bytes ∧ data.length = q.width
  stops : ∀ rec a, output rec = .error a → a ≠ .diverges

theorem Feeding.turn (feeding : Feeding q base source result firstS firstR cond o t co c state)
    (feeds : Feeds l source result output) (derives : Derives q cond o output)
    (files : FeedingFiles q base source result firstS firstR) (some_pair : q.leftAt t o co c ≠ [] → q.pairs ≠ []) :
    (∃ state' c' status, l.next state = .ok (some status,state') ∧
      Feeding q base source result firstS firstR cond o t co c' state' ∧
      q.leftAt t o co c = q.pairsIn co.remaining (records (t.seen q.fromInner q.inner))) ∨
    ∃ state1 c1 e, l.next state = .ok (none,state1) ∧ q.leftAt t o co c = (o,e)::q.leftAt t o co c1 ∧
      q.Places t o co c1 ∧ c1.Current e ∧
      ((∃ a, a ≠ .diverges ∧ l.body state1 = .error a) ∨
        ∃ inserted t' c2 co2 state2, t.Takes (q.output o.2 e.2) inserted t' ∧ (q.output o.2 e.2).length = q.width ∧
          (pageNos t'.heap).Nodup ∧ Feeding q base source result firstS firstR cond o t' co2 c2 state2 ∧
          Tail.Watched q.fromOuter q.outer t' (q.output o.2 e.2) inserted co co2 ∧
          Tail.Watched q.fromInner q.inner t' (q.output o.2 e.2) inserted c1 c2 ∧
          ((∃ rid, inserted = .ok rid ∧ l.body state1 = .ok (none,state2)) ∨
            ∃ status, inserted = .error status ∧ status ≠ .ok ∧ l.body state1 = .ok (some status,state2))) := by
  obtain ⟨db,s,rel⟩ := state
  obtain ⟨filling,filter,places⟩ := feeding
  obtain ⟨_,positive,own,owned,at_source,at_result⟩ := files
  have same_accepts : (fun e : Entry => q.accepts o.2 e.2) = fun e => HeapFileScan.accepts cond e.2 :=
    funext fun e => derives.chooses e.2
  obtain ⟨next,s1,c1,db1,moved,filling1,filter1,found⟩ := filling.next owned at_source at_result filter
  have places1 : q.Places t o co c1 := ⟨places.outer,places.current,by rw [own]; exact filling1.whole⟩
  have went := feeds.next rel moved
  rcases found with ⟨rfl,nothing⟩ | ⟨e,rfl,_,current,read,split⟩
  · refine .inl ⟨_,c1,_,went,⟨filling1,filter1,places1⟩,?_⟩
    rw [Derivation.leftAt,Derivation.left,same_accepts,nothing]
    rfl
  · have left : q.leftAt t o co c = (o,e)::q.leftAt t o co c1 := by
      rw [Derivation.leftAt,Derivation.left,same_accepts,split,Derivation.leftAt,Derivation.left,same_accepts]
      rfl
    refine .inr ⟨_,c1,e,went,left,places1,current,?_⟩
    · cases made : output (.of e.2) with
      | error a => exact .inl ⟨a,derives.stops _ a made,feeds.aborts rel read made⟩
      | ok data =>
        obtain ⟨rfl,width⟩ := derives.makes e.2 data made
        have some_bytes : q.output o.2 e.2 ≠ [] := fun empty =>
          positive (some_pair (by rw [left]; exact List.cons_ne_nil _ _)) (by rw [← width,empty]; rfl)
        obtain ⟨inserted,rel2,db2,t',c2,ran,takes,watched,filling2⟩ := filling1.insertRecord owned at_result some_bytes
        rw [← own] at watched
        obtain ⟨co2,watched_outer⟩ := takes.watched places.outer
        have feeding2 : Feeding q base source result firstS firstR cond o t' co2 c2 (db2,s1,rel2) :=
          ⟨filling2,filter1,⟨watched_outer.whole,watched_outer.follows.current o places.current,watched.whole⟩⟩
        cases inserted with
        | ok rid =>
          exact .inr ⟨_,t',c2,co2,_,takes,width,filling2.nodup,feeding2,watched_outer,watched,
            .inl ⟨rid,rfl,feeds.inserts read made ran⟩⟩
        | error status =>
          rcases feeds.fails read made ran with exits | returns
          · exact .inl ⟨.exit,Abort.noConfusion,exits⟩
          · exact .inr ⟨_,t',c2,co2,_,takes,width,filling2.nodup,feeding2,watched_outer,watched,
              .inr ⟨status,rfl,(Lands.refuses takes).1,returns⟩⟩

-- The loop under way, its outer scan on the record it has stood on from the start.
def Fed (q : Derivation) (base : Shelf) (source result : Name) (firstS firstR : Int) (cond : Option Condition)
    (o : Entry) (outer : Cursor) (most m : Nat) (state : Db × HeapFileScan × InsertFileScan) : Prop :=
  ∃ t co c, Feeding q base source result firstS firstR cond o t co c state ∧
    co.pageNo = outer.pageNo ∧ co.next = outer.next ∧ q.Goes t (o::co.remaining) (q.leftAt t o co c) m ∧
    (q.Calm → co.remaining.length + m ≤ most)

-- The loop when it has returned.
def FedUp (q : Derivation) (base : Shelf) (source result : Name) (firstS firstR : Int) (cond : Option Condition)
    (o : Entry) (outer : Cursor) (most : Nat) (status : Status) (state : Db × HeapFileScan × InsertFileScan) : Prop :=
  ∃ t co c, Feeding q base source result firstS firstR cond o t co c state ∧
    co.pageNo = outer.pageNo ∧ co.next = outer.next ∧
    (status = .ok → ∃ m, q.Goes t (o::co.remaining) (q.pairsIn co.remaining (records (t.seen q.fromInner q.inner))) m ∧
      (q.Calm → co.remaining.length + m ≤ most)) ∧
    (q.Calm → ∃ new, Gains q.result t.heap new ∧ new <+: q.tuples)

theorem Feeds.run (feeds : Feeds l source result output) (derives : Derives q cond o output)
    (files : FeedingFiles q base source result firstS firstR) {outer : Cursor} {most m : Nat} (turns : Nat)
    (start : Fed q base source result firstS firstR cond o outer most m state) :
    ((q.Calm → turns ≤ m) ∧ l.run .ok .diverges turns state = .error .diverges) ∨
      (∃ a, a ≠ .diverges ∧ l.run .ok .diverges turns state = .error a) ∨
      ∃ status state', l.run .ok .diverges turns state = .ok (status,state') ∧
        FedUp q base source result firstS firstR cond o outer most status state' := by
  refine Loop.run_within (fun m state fed => ?_) turns start
  obtain ⟨t,co,c,feeding,on_page,next,goes,bound⟩ := fed
  rcases feeding.turn feeds derives files goes.some_pair with ⟨state1,c1,status,went,feeding1,left⟩ | ⟨state1,
    c1,e,went,left,places,
    current,body⟩
  · rw [left] at goes
    exact .inl ⟨status,state1,went,t,co,c1,feeding1,on_page,next,fun _ => ⟨m,goes,bound⟩,goes.first_part⟩
  · refine .inr ⟨state1,went,body.imp_right fun inserts => ?_⟩
    obtain ⟨inserted,t',c2,co2,state2,takes,width,nodup,feeding2,outer2,inner2,ends⟩ := inserts
    have on_page2 := outer2.follows.pageNo.trans on_page
    have next2 := outer2.follows.next.trans next
    rw [left] at goes
    rcases ends with ⟨rid,rfl,ran⟩ | ⟨status,rfl,failed,returned⟩
    · obtain ⟨m',less,goes2⟩ := goes.insert files.sound places current width takes nodup outer2 inner2
      refine .inr ⟨m',state2,less,ran,t',co2,c2,feeding2,on_page2,next2,goes2,fun calm => ?_⟩
      have few : co2.remaining.length ≤ co.remaining.length + 1 := by
        rcases outer2.follows.gained rid rfl with same | more
        · rw [same]
          omega
        · exact Nat.le_of_eq more.length
      have smaller := less calm
      have within := bound calm
      omega
    · exact .inl ⟨status,state2,returned,t',co2,c2,feeding2,on_page2,next2,fun fine => absurd fine failed,
        goes.refused takes⟩

end feeding
theorem field_of {bytes data : List UInt8} {d : AttrDesc} (ok : field (.of bytes) d = .ok data) :
    data = (bytes.drop d.attrOffset.toNat).take d.attrLen.toNat ∧ (data.length : Int) = d.attrLen := by
  unfold field at ok
  split at ok
  · rename_i inside
    obtain ⟨low,positive,high⟩ := inside
    obtain rfl := Except.ok.inj ok
    dsimp only [Record.of] at high ⊢
    refine ⟨rfl,?_⟩
    rw [List.length_take,List.length_drop]
    omega
  · cases ok

theorem field_stops {rec : Record} {d : AttrDesc} {a : Abort} (error : field rec d = .error a) : a = .undefined := by
  unfold field at error
  split at error <;> cases error
  rfl

-- What a pair of records gives when they are long enough.
theorem joinRecord_of {outerName : Name} {one two data : List UInt8} {attrs : List AttrDesc}
    (ok : joinRecord outerName (.of one) (.of two) attrs = .ok data) :
    data = gathered (sourceOf outerName one two) attrs ∧ (data.length : Int) = (attrs.map AttrDesc.attrLen).sum := by
  induction attrs generalizing data with
  | nil =>
    cases ok
    exact ⟨rfl,rfl⟩
  | cons d ds ih =>
    have chosen : (if d.relName = outerName then Record.of one else .of two) = .of (sourceOf outerName one two d) := by
      rw [sourceOf]
      split <;> rfl
    rw [joinRecord,chosen] at ok
    obtain ⟨bytes,here,ok⟩ := of_bind_ok ok
    obtain ⟨rest,later,ok⟩ := of_bind_ok ok
    obtain rfl := Except.ok.inj ok
    obtain ⟨rfl,length⟩ := field_of here
    obtain ⟨rfl,lengths⟩ := ih later
    refine ⟨rfl,?_⟩
    rw [List.length_append,List.map_cons,List.sum_cons,Nat.cast_add,length,lengths]

theorem joinRecord_stops {outerName : Name} {one two : Record} {attrs : List AttrDesc} {a : Abort}
    (error : joinRecord outerName one two attrs = .error a) : a = .undefined := by
  induction attrs with
  | nil => cases error
  | cons d ds ih =>
    rw [joinRecord] at error
    cases here : field (if d.relName = outerName then one else two) d with
    | error a' =>
      rw [here] at error
      cases error
      exact field_stops here
    | ok bytes =>
      rw [here,ok_bind] at error
      cases later : joinRecord outerName one two ds with
      | error a' =>
        rw [later] at error
        cases error
        exact ih later
      | ok rest =>
        rw [later] at error
        cases error

-- A projection takes both records for the same one.
theorem project_join (outerName : Name) (rec : Record) (attrs : List AttrDesc) :
    project rec attrs = joinRecord outerName rec rec attrs := by
  induction attrs with
  | nil => rfl
  | cons d ds ih => rw [project,joinRecord,ite_self,ih]

theorem innerTurns_unfailing (inner result outerName : Name) (attrs : List AttrDesc) (outerRec : Record)
    (state state' : Db × HeapFileScan × InsertFileScan) (status : Status) :
    (innerTurns inner result outerName attrs outerRec).body state ≠ .ok (some status,state') := by
  intro ended
  obtain ⟨db,s,rel⟩ := state
  dsimp only [innerTurns] at ended
  obtain ⟨read,_,ended⟩ := of_bind_ok ended
  cases read with
  | error status => cases ended
  | ok rec =>
    obtain ⟨data,_,ended⟩ := of_bind_ok ended
    obtain ⟨⟨inserted,rel',db'⟩,_,ended⟩ := of_bind_ok ended
    cases inserted <;> cases ended

-- The tuples of a join.
def joinDerivation (result outer inner : Heap) (fromOuter fromInner : Bool) (outerName : Name) (attrs : List AttrDesc)
    (d1 d2 : AttrDesc) (op : Operator) : Derivation :=
  ⟨result,outer,inner,(attrs.map AttrDesc.attrLen).sum.toNat,fromOuter,fromInner,
    fun one two => HeapFileScan.accepts (joinCondition d1 d2 op one) two,
    fun one two => gathered (sourceOf outerName one two) attrs⟩

theorem joinDerivation_derives (resultHeap outerHeap innerHeap : Heap) (fromOuter fromInner : Bool) (outerName : Name)
    (attrs : List AttrDesc) (d1 d2 : AttrDesc) (op : Operator) (o : Entry) :
    Derives (joinDerivation resultHeap outerHeap innerHeap fromOuter fromInner outerName attrs d1 d2 op)
      (joinCondition d1 d2 op o.2) o fun rec => joinRecord outerName (.of o.2) rec attrs := by
  refine ⟨fun _ => rfl,fun bytes data made => ?_,fun rec a failed => ?_⟩
  · obtain ⟨same,length⟩ := joinRecord_of made
    refine ⟨same,?_⟩
    change data.length = (attrs.map AttrDesc.attrLen).sum.toNat
    omega
  · rw [joinRecord_stops failed]
    exact Abort.noConfusion

-- The files of a join, of which either may be the result.
structure JoinFiles (q : Derivation) (base : Shelf) (outer inner result : Name) (firstO firstI firstR : Int) :
    Prop where
  sound : q.Sound
  positive : q.pairs ≠ [] → q.width ≠ 0
  own_outer : q.fromOuter = decide (outer = result)
  own_inner : q.fromInner = decide (inner = result)
  owned : base.Owned
  at_outer : base.Shows outer firstO q.outer
  at_inner : base.Shows inner firstI q.inner
  at_result : base.Shows result firstR q.result

section join

variable {q : Derivation} {base : Shelf} {outer inner result : Name} {firstO firstI firstR : Int} {t : Tail}
  {co : Cursor} {o : Entry} {db : Db} {s : HeapFileScan} {rel : InsertFileScan} {attrs : List AttrDesc}
  {d1 d2 : AttrDesc} {op : Operator} {m : Nat}

theorem withScan_under (base : Shelf) (outer result : Name) (rel : InsertFileScan) (t : Tail) (s : HeapFileScan)
    (c : Cursor) : ((base.refill result t.heap t.recCnt).withInsert result rel t.last).withScan outer s c =
      ((base.withScan outer s c).refill result t.heap t.recCnt).withInsert result rel t.last := by
  rw [Shelf.withInsert_withScan,Shelf.withScan_refill]

-- The block of the outer loop.
theorem joinOuter_feeds (files : JoinFiles q base outer inner result firstO firstI firstR)
    (derives : ∀ o, Derives q (joinCondition d1 d2 op o.2) o fun rec => joinRecord outer (.of o.2) rec attrs)
    (filling : Filling base outer result q.outer firstO firstR t co db s rel) (current : co.Current o)
    (goes : q.Goes t (o::co.remaining) (q.pairsIn (o::co.remaining) (records (t.seen q.fromInner q.inner))) m)
    (turns : Nat) :
    (∃ a, (a = .diverges → q.Calm → turns ≤ m) ∧
      joinOuter outer inner result attrs d1 d2 op turns db (.of o.2) rel = .error a) ∨
    ∃ status rel' db' t' co', joinOuter outer inner result attrs d1 d2 op turns db (.of o.2) rel =
      .ok (status,rel',db') ∧
      Filling base outer result q.outer firstO firstR t' co' db' s rel' ∧
      (status = .ok → ∃ m', q.Goes t' co'.remaining (q.pairsIn co'.remaining (records (t'.seen q.fromInner q.inner)))
        m' ∧
        (q.Calm → co'.remaining.length + m' ≤ co.remaining.length + m)) ∧
      (q.Calm → ∃ new, Gains q.result t'.heap new ∧ new <+: q.tuples) := by
  have ⟨sound,positive,own_outer,own_inner,owned,at_outer,at_inner,at_result⟩ := files
  have files' : FeedingFiles q (base.withScan outer s co) inner result firstI firstR :=
    ⟨sound,positive,own_inner,owned.withScan _ _ _,at_inner.withScan _ _ _,at_result.withScan _ _ _⟩
  have shows_inner := (Filling.shows_seen at_result at_inner rel t).withScan outer s co
  have owned_now := (((owned.refill result t.heap t.recCnt).withInsert result rel t.last).withScan outer s co)
  obtain ⟨db1,s1,c1,made,stands1,at1,whole1,all,clear⟩ := filling.stands.open_with_scan shows_inner
  rw [← own_inner] at whole1 all
  rcases joinOuter_opened outer result attrs made d1 d2 op turns rel with begun | refused | beyond
  · rw [begun,innerLoop_turns]
    have places : q.Places t o co c1 := ⟨by rw [own_outer]; exact filling.whole,current,whole1⟩
    have feeding : Feeding q (base.withScan outer s co) inner result firstI firstR (joinCondition d1 d2 op o.2)
      o t co c1
        (db1,{s1 with filter := joinCondition d1 d2 op o.2},rel) := by
      refine ⟨⟨?_,⟨at1.headerPage,at1.headerPageNo,at1.curPage,at1.curPageNo,at1.slot⟩,filling.insert,
        by rw [← own_inner]; exact whole1,filling.nodup⟩,rfl,places⟩
      rw [withScan_under] at stands1
      exact stands1
    have left : q.leftAt t o co c1 = q.pairsIn (o::co.remaining) (records (t.seen q.fromInner q.inner)) := by
      rw [Derivation.leftAt,Derivation.left,all]
      rfl
    rw [← left] at goes
    rcases (innerTurns_feeds inner result outer attrs (.of o.2)).run (derives o) files' turns
        ⟨t,co,c1,feeding,rfl,rfl,goes,fun _ => Nat.le_refl _⟩ with
      ⟨few,out⟩ | ⟨a,other,out⟩ | ⟨status,⟨db2,s2,rel2⟩,looped,t',co',c',feeding',on_page,next,fine,part⟩
    · exact .inl ⟨.diverges,fun _ => few,by rw [out]; rfl⟩
    · exact .inl ⟨a,fun diverged => absurd diverged other,by rw [out]; rfl⟩
    · obtain rfl := Loop.run_unfailing turns (fun _ s1 failed s' _ => innerTurns_unfailing _ _ _ _ _ s1 s' failed)
        looped
      have filling' := feeding'.filling
      have under : ((base.withScan outer s co).refill result t'.heap t'.recCnt).withInsert result rel2 t'.last =
          ((base.refill result t'.heap t'.recCnt).withInsert result rel2 t'.last).withScan outer s co' := by
        rw [← withScan_under,Shelf.withScan,Shelf.withScan,on_page]
      obtain ⟨db3,deleted,stands3⟩ := filling'.stands.close_scan
        (((owned.withScan outer s co).refill _ _ _).withInsert _ _ _)
        (filling'.shows_source files'.at_source files'.at_result) filling'.scan
      rw [under] at stands3
      have scan : s.At firstO co' :=
        ⟨filling.scan.headerPage,filling.scan.headerPageNo,by rw [on_page]; exact filling.scan.curPage,
        by rw [on_page]; exact filling.scan.curPageNo,by rw [next]; exact filling.scan.slot⟩
      refine .inr ⟨.ok,rel2,db3,t',co',?_,⟨stands3,scan,filling'.insert,?_,filling'.nodup⟩,fun _ => ?_,part⟩
      · rw [looped,ok_bind]
        dsimp only
        rw [pure_ok,ok_bind]
        dsimp only
        rw [deleted]
        rfl
      · rw [← own_outer]
        exact feeding'.places.outer
      · obtain ⟨m',goes',bound⟩ := fine rfl
        exact ⟨m',goes'.passed,bound⟩
  · obtain ⟨db3,deleted,stands3⟩ := stands1.close_scan owned_now (by rw [whole1,own_inner]; exact shows_inner) at1
    refine .inr ⟨.badScanParm,rel,db3,t,co,?_,{filling with stands := stands3},Status.noConfusion,
      goes.first_part⟩
    rw [refused,deleted]
    rfl
  · exact .inl ⟨.undefined,Abort.noConfusion,beyond⟩

-- The outer loop when it has returned.
def JoinedUp (q : Derivation) (base : Shelf) (outer result : Name) (firstO firstR : Int) (status : Status)
    (state : Db × HeapFileScan × InsertFileScan) : Prop :=
  ∃ t co, Filling base outer result q.outer firstO firstR t co state.1 state.2.1 state.2.2 ∧
    (status = .ok → ∃ ahead m, q.Goes t ahead [] m) ∧ (q.Calm → ∃ new, Gains q.result t.heap new ∧ new <+: q.tuples)

theorem outerTurns_run (files : JoinFiles q base outer inner result firstO firstI firstR)
    (derives : ∀ o, Derives q (joinCondition d1 d2 op o.2) o fun rec => joinRecord outer (.of o.2) rec attrs)
    (filling : Filling base outer result q.outer firstO firstR t co db s rel) (clear : s.filter = none)
    (goes : q.Goes t co.remaining (q.pairsIn co.remaining (records (t.seen q.fromInner q.inner))) m)
    (innerTurns turns : Nat) :
    let run := (outerTurns outer inner result attrs d1 d2 op innerTurns).run .ok .diverges turns (db,s,rel)
    ((q.Calm → turns ≤ co.remaining.length + m) ∧ run = .error .diverges) ∨
      (∃ a, (a = .diverges → q.Calm → innerTurns ≤ q.tuples.length) ∧ run = .error a) ∨
      ∃ status state', run = .ok (status,state') ∧ JoinedUp q base outer result firstO firstR status state' := by
  let under_way := fun (bound : Nat) (state : Db × HeapFileScan × InsertFileScan) => ∃ t co m,
    Filling base outer result q.outer firstO firstR t co state.1 state.2.1 state.2.2 ∧ state.2.1.filter = none ∧
      q.Goes t co.remaining (q.pairsIn co.remaining (records (t.seen q.fromInner q.inner))) m ∧
      bound = co.remaining.length + m
  refine Loop.run_within (fun bound state (inv : under_way bound state) => ?_) turns ⟨t,co,m,filling,clear,goes,rfl⟩
  obtain ⟨db,s,rel⟩ := state
  obtain ⟨t,co,m,filling,clear,goes,rfl⟩ := inv
  have all_accepted : ∀ l : List Entry, (l.filter fun e => HeapFileScan.accepts none e.2) = l := fun l =>
    List.filter_eq_self.mpr fun _ _ => rfl
  obtain ⟨next,s1,co1,db1,moved,filling1,clear1,found⟩ :=
    filling.next files.owned files.at_outer files.at_result clear
  have went : (outerTurns outer inner result attrs d1 d2 op innerTurns).next (db,s,rel) =
      .ok (failure next,db1,s1,rel) := by
    simp only [outerTurns,scanTurn,moved,ok_bind]
    rfl
  rw [all_accepted,all_accepted] at found
  rcases found with ⟨rfl,nothing⟩ | ⟨o,rfl,_,current,read,split⟩
  · rw [nothing] at goes
    exact .inl ⟨_,_,went,t,co1,filling1,fun _ => ⟨_,m,goes⟩,goes.first_part⟩
  · rw [split] at goes
    refine .inr ⟨_,went,?_⟩
    rcases joinOuter_feeds files derives filling1 current goes innerTurns with
      ⟨a,few,out⟩ | ⟨status,rel2,db2,t2,co2,ran,filling2,fine,part⟩
    · refine .inl ⟨a,fun diverged calm => Nat.le_trans (few diverged calm) (goes.le calm),?_⟩
      simp only [outerTurns,read,ok_bind,out]
      rfl
    · have body : (outerTurns outer inner result attrs d1 d2 op innerTurns).body (db1,s1,rel) =
          .ok (if status ≠ .ok then some status else none,db2,s1,rel2) := by
        simp only [outerTurns,read,ok_bind,ran]
        rfl
      by_cases failed : status ≠ .ok
      · rw [if_pos failed] at body
        exact .inr (.inl ⟨status,_,body,t2,co2,filling2,fun ok => absurd ok failed,part⟩)
      · rw [if_neg failed] at body
        obtain ⟨m2,goes2,less⟩ := fine (Decidable.not_not.mp failed)
        refine .inr (.inr ⟨co2.remaining.length + m2,_,fun calm => ?_,body,t2,co2,m2,filling2,clear1,goes2,rfl⟩)
        have shorter := congrArg List.length split
        have within := less calm
        rw [List.length_cons] at shorter
        omega

end join
end Minirel
