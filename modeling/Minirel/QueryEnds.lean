import Minirel.FeedingLoops

namespace Minirel
open ByteMemory SlotDirectory Page Heap Turns

inductive Query where
  | select (projNames : List AttrInfo) (attr : Option AttrInfo) (op : Operator) (attrValue : List UInt8)
  | join (projNames : List AttrInfo) (attr1 : AttrInfo) (op : Operator) (attr2 : AttrInfo)

def Query.run (atof : List UInt8 → List UInt8) (turns : Nat) (db : Db) (result : Name) :
    Query → Except Abort (Status × Db)
  | .select projNames attr op attrValue => QU_Select atof turns db result projNames attr op attrValue
  | .join projNames attr1 op attr2 => QU_NL_Join turns db result projNames attr1 op attr2

-- No record that a selection puts into its own source is one that it then comes to and selects: it lies
-- before the record it was made of, or is not selected, or none is put there as they fit no page.
def SelectCalm (heap : Heap) (condition : Option Condition) (attrs : List AttrDesc) : Prop :=
  dataSize < (attrs.map AttrDesc.attrLen).sum.toNat + slotSize ∨
    ∀ (k : Nat) e, ((records heap).filter fun e => HeapFileScan.accepts condition e.2)[k]? = some e →
      Before heap (attrs.map AttrDesc.attrLen).sum.toNat k e.1 ∨
        HeapFileScan.accepts condition (projection attrs e.2) = false

-- A query over these relations, the tuples it is to derive from their present records, and whether it
-- derives nothing from those tuples.
inductive Query.Over (atof : List UInt8 → List UInt8) (db : Db) (shelf : Shelf) (target : HeldFile) (result : Name) :
    Query → List (List UInt8) → Prop → Prop where
  | select (cat file : HeldFile) (source : Name) (infos : List AttrInfo) (attrs : List AttrDesc)
      (attr : Option AttrInfo)
      (attrDesc : Option AttrDesc) (op : Operator) (attrValue : List UInt8)
      (query : SelectQuery db shelf cat file target source result infos attrs attr attrDesc) :
      Over atof db shelf target result (.select infos attr op attrValue)
        (selected file.heap (selectCondition atof attrDesc op attrValue) attrs)
        (source = result → SelectCalm file.heap (selectCondition atof attrDesc op attrValue) attrs)
  | join (cat file1 file2 : HeldFile) (one two : Name) (infos : List AttrInfo) (attrs : List AttrDesc)
      (attr1 attr2 : AttrInfo)
      (d1 d2 : AttrDesc) (op : Operator)
      (query : JoinLaid db shelf cat file1 file2 target one two result infos attrs attr1 attr2 d1 d2) :
      Over atof db shelf target result (.join infos attr1 op attr2)
        (joined one attrs d1 d2 op (records file1.heap) file2.heap)
        (attr1.attrType = attr2.attrType ∧ attr1.attrLen = attr2.attrLen →
          (joinDerivation target.heap file1.heap file2.heap (one = result) (two = result) one attrs d1 d2 op).Calm)

-- The result has gained nothing but tuples derived from the records there were, and the other files
-- stand as they did.
def DerivedOnly (shelf : Shelf) (result : Name) (target : HeldFile) (derived : List (List UInt8)) (db' : Db) : Prop :=
  ∃ target' new, db'.Stands (Function.update shelf result (some target')) ∧ target'.books = target.books ∧
    Gains target.heap target'.heap new ∧ new <+: derived

-- How a query that has returned has left the directory.
def Derivation.Ends (q : Derivation) (shelf : Shelf) (result : Name) (target : HeldFile) (status : Status) (db' : Db) :
    Prop :=
  ∃ t : Tail, db'.Stands (Function.update shelf result (some ⟨target.books,t.heap,t.recCnt⟩)) ∧
    (status = .ok → ∃ ahead m, q.Goes t ahead [] m) ∧ (q.Calm → ∃ new, Gains q.result t.heap new ∧ new <+: q.tuples)

section ends

variable {q : Derivation} {db db' : Db} {shelf : Shelf} {cat file file1 file2 target : HeldFile}
  {source outer inner result : Name} {attrs : List AttrDesc} {d1 d2 : AttrDesc} {status : Status}

theorem Derivation.Ends.derived (ends : q.Ends shelf result target status db') (same : q.result = target.heap)
    (calm : q.Calm) : DerivedOnly shelf result target q.tuples db' := by
  obtain ⟨t,stands,_,part⟩ := ends
  obtain ⟨new,gains,only⟩ := part calm
  exact ⟨_,new,stands,rfl,same ▸ gains,only⟩

theorem Derivation.Ends.calm (ends : q.Ends shelf result target .ok db') (same : q.result = target.heap)
    (derived : DerivedOnly shelf result target q.tuples db') : q.Calm := by
  obtain ⟨t,stands,fine,_⟩ := ends
  obtain ⟨ahead,m,goes⟩ := fine rfl
  obtain ⟨target',new,stands',books,gains,only⟩ := derived
  have pages := stands.unique stands' (Function.update_self ..) (Function.update_self ..) books
  rw [pages,← same] at gains
  exact goes.done gains only

theorem Db.Stands.records_nodup {name : Name} (stands : db.Stands shelf) (present : shelf name = some file) :
    (pageNos file.heap).Nodup ∧ (records file.heap).Nodup := by
  obtain ⟨_,_,b,_,_,stored⟩ := stands name file present
  exact ⟨stored.nodup,List.Nodup.of_map _ (records_keys_nodup stored.nodup)⟩

-- Attributes that lie inside some records are not empty, and what is made of them is not.
theorem width_positive {source : AttrDesc → List UInt8} (some_attr : attrs ≠ [])
    (inside : ∀ d ∈ attrs, Inside d (source d)) : (attrs.map AttrDesc.attrLen).sum.toNat ≠ 0 := by
  have length := length_gathered inside
  have filled := List.length_pos_of_ne_nil (gathered_ne_nil inside some_attr)
  omega

theorem shows_of_present {name : Name} (present : shelf name = some file) :
    shelf.Shows name file.books.first file.heap := ⟨file,present,rfl,rfl⟩

theorem Tail.seen_start {t : Tail} {own : Bool} {pages : Heap} (same : own = true → pages = t.heap) :
    t.seen own pages = pages := by
  cases own with
  | false => rfl
  | true => exact (same rfl).symm

-- The file of one name is one file.
theorem own_pages {name : Name} (present : shelf name = some file) (at_result : shelf result = some target)
    (own : decide (name = result) = true) : file.heap = target.heap := by
  rw [of_decide_eq_true own,at_result] at present
  cases present
  rfl

-- Both objects opened, on a file that has not changed yet.
theorem Filling.start {name : Name} {t : Tail} {s : HeapFileScan} {rel : InsertFileScan} {c : Cursor} {first : Int}
    (before : db.Stands shelf) (present : shelf name = some file) (at_result : shelf result = some target)
    (pages : t.heap = target.heap) (count : t.recCnt = target.recCnt)
    (stands : db'.Stands ((shelf.withInsert result rel t.last).withScan name s c)) (scan : s.At first c)
    (insert : rel.At target.books.first t.last) (whole : c.heap = file.heap) :
    Filling shelf name result file.heap first target.books.first t c db' s rel := by
  refine ⟨?_,scan,insert,?_,?_⟩
  · rw [pages,count,Shelf.refill_self at_result]
    exact stands
  · exact whole.trans (Tail.seen_start fun own => (own_pages present at_result own).trans pages.symm).symm
  · rw [pages]
    exact (before.records_nodup at_result).1

-- With the scan gone, the destructor of the other object leaves the file with its new pages.
theorem Filling.close {name : Name} {t : Tail} {s : HeapFileScan} {rel : InsertFileScan} {c : Cursor} {other : Heap}
    {first : Int} {db1 : Db} (filling : Filling shelf name result other first target.books.first t c db' s rel)
    (before : db.Stands shelf) (at_result : shelf result = some target)
    (stands : db1.Stands ((shelf.refill result t.heap t.recCnt).withInsert result rel t.last)) :
    ∃ db2, db1.deleteInsertFileScan result rel = .ok db2 ∧
      db2.Stands (Function.update shelf result (some ⟨target.books,t.heap,t.recCnt⟩)) := by
  obtain ⟨db2,closed,stands2⟩ := stands.close_insert_object (before.owned.refill _ _ _)
    ((shows_of_present at_result).refill t.heap t.recCnt) filling.insert
  rw [Shelf.refill_present at_result] at stands2
  exact ⟨db2,closed,stands2⟩

theorem joinDerivation_tuples (heap one two : Heap) (own1 own2 : Bool) (outerName : Name) (attrs : List AttrDesc)
    (d1 d2 : AttrDesc) (op : Operator) : (joinDerivation heap one two own1 own2 outerName attrs d1 d2 op).tuples =
      joined outerName attrs d1 d2 op (records one) two := by
  rw [Derivation.tuples,Derivation.pairs,Derivation.pairsIn,pairsOf,List.map_flatMap]
  refine congrArg (fun f => List.flatMap f (records one)) (funext fun o => ?_)
  rw [List.map_map]
  rfl

theorem joinDerivation_files (stands : db.Stands shelf) (at_outer : shelf outer = some file1)
    (at_inner : shelf inner = some file2) (at_result : shelf result = some target) (some_attr : attrs ≠ [])
    (inside : ∀ e1 ∈ records file1.heap, ∀ e2 ∈ records file2.heap, ∀ d ∈ attrs, Inside d (sourceOf outer e1.2 e2.2 d))
    (d1 d2 : AttrDesc) (op : Operator) :
    JoinFiles (joinDerivation target.heap file1.heap file2.heap (outer = result) (inner = result) outer attrs d1 d2 op)
      shelf outer inner result file1.books.first file2.books.first target.books.first := by
  refine ⟨⟨own_pages at_outer at_result,own_pages at_inner at_result,(stands.records_nodup at_outer).2⟩,?_,rfl,rfl,
    stands.owned,shows_of_present at_outer,shows_of_present at_inner,shows_of_present at_result⟩
  intro some_pair
  obtain ⟨⟨o,e⟩,member⟩ := List.exists_mem_of_ne_nil _ some_pair
  obtain ⟨o',in_outer,found⟩ := List.mem_flatMap.mp member
  obtain ⟨e',in_inner,_⟩ := List.mem_map.mp found
  exact width_positive some_attr (inside o' in_outer e' (List.mem_filter.mp in_inner).1)

theorem joinScan_ends (stands : db.Stands shelf) (name1 : d1.relName = outer) (name2 : d2.relName = inner)
    (at_outer : shelf outer = some file1) (at_inner : shelf inner = some file2) (at_result : shelf result = some target)
    (some_attr : attrs ≠ [])
    (inside : ∀ e1 ∈ records file1.heap, ∀ e2 ∈ records file2.heap, ∀ d ∈ attrs, Inside d (sourceOf outer e1.2 e2.2 d))
    (op : Operator) (turns : Nat) :
    let q := joinDerivation target.heap file1.heap file2.heap (outer = result) (inner = result) outer attrs d1 d2 op
    (∃ a, (a = .diverges → q.Calm → turns ≤ (records file1.heap).length + q.tuples.length) ∧
      joinScan turns db result attrs d1 d2 op = .error a) ∨
    ∃ status db', joinScan turns db result attrs d1 d2 op = .ok (status,db') ∧
      q.Ends shelf result target status db' := by
  intro q
  have files := joinDerivation_files stands at_outer at_inner at_result some_attr inside d1 d2 op
  obtain ⟨db1,rel,before,n,d,made,split,stands1,at_rel⟩ := stands.open_with_insert files.at_result
  obtain ⟨db2,s,c,opened,stands2,at_s,whole,all,clear⟩ :=
    stands1.open_with_scan (files.at_outer.withInsert result rel n)
  have started : s.startScan 0 0 (some .string) none .eq = (.ok,s) := by rw [HeapFileScan.startScan,← clear]
  obtain ⟨t,rfl,rfl,pages,count⟩ : ∃ t : Tail, t.last = n ∧ t.slots = d ∧ t.heap = target.heap ∧
      t.recCnt = target.recCnt := ⟨⟨before,n,d,target.recCnt⟩,rfl,rfl,split.symm,rfl⟩
  have filling := Filling.start stands at_outer at_result pages count stands2 at_s at_rel whole
  have goes : q.Goes t (records q.outer) q.pairs q.tuples.length :=
    Derivation.Goes.start pages.symm (stands.records_nodup at_result).1
  have first : q.pairs = q.pairsIn c.remaining (records (t.seen q.fromInner q.inner)) := by
    have seen_inner : t.seen q.fromInner q.inner = q.inner :=
      Tail.seen_start fun own => (own_pages at_inner at_result own).trans pages.symm
    rw [all,seen_inner]
    rfl
  rw [first,show records q.outer = c.remaining from all.symm] at goes
  rw [joinScan,made,ok_bind]
  dsimp only
  rw [if_neg (not_not_intro rfl),name1,name2,opened,ok_bind]
  dsimp only
  rw [if_neg (not_not_intro rfl),started]
  dsimp only
  rw [outerLoop_turns]
  rcases outerTurns_run files (joinDerivation_derives _ _ _ _ _ _ _ _ _ _) filling clear goes turns turns with
    ⟨few,out⟩ | ⟨a,few,out⟩ | ⟨status,⟨db3,s3,rel3⟩,looped,t',co,filling3,fine,part⟩
  · rw [all] at few
    exact .inl ⟨.diverges,fun _ => few,by rw [out]; rfl⟩
  · exact .inl ⟨a,fun diverged calm => Nat.le_trans (few diverged calm) (Nat.le_add_left ..),by rw [out]; rfl⟩
  · obtain ⟨db4,deleted,stands4⟩ := filling3.stands.close_scan ((files.owned.refill _ _ _).withInsert _ _ _)
      (filling3.shows_source files.at_outer files.at_result) filling3.scan
    obtain ⟨db5,closed,stands5⟩ := filling3.close stands at_result stands4
    refine .inr ⟨status,db5,?_,t',stands5,fine,part⟩
    rw [looped,ok_bind]
    dsimp only
    rw [pure_ok,ok_bind]
    dsimp only
    rw [deleted,ok_bind,closed]
    rfl

-- A selection as a join with one record of no relation.
def selectDerivation (result inner : Heap) (fromInner : Bool) (attrs : List AttrDesc) (condition : Option Condition) :
    Derivation :=
  ⟨result,[(0,[some []])],inner,(attrs.map AttrDesc.attrLen).sum.toNat,false,fromInner,
    fun _ bytes => HeapFileScan.accepts condition bytes,fun _ bytes => projection attrs bytes⟩

def loneRecord : Entry := (⟨0,0⟩,[])

theorem selectDerivation_pairs (heap pages : Heap) (own : Bool) (attrs : List AttrDesc) (condition : Option Condition) :
    (selectDerivation heap pages own attrs condition).pairs =
      ((records pages).filter fun e => HeapFileScan.accepts condition e.2).map (Prod.mk loneRecord) :=
  List.append_nil _

theorem selectDerivation_tuples (heap pages : Heap) (own : Bool) (attrs : List AttrDesc)
    (condition : Option Condition) :
    (selectDerivation heap pages own attrs condition).tuples = selected pages condition attrs := by
  rw [Derivation.tuples,selectDerivation_pairs,List.map_map]
  rfl

theorem selectDerivation_calm (heap pages : Heap) (own : Bool) (attrs : List AttrDesc) (condition : Option Condition)
    (same : own = true → pages = heap) :
    (selectDerivation heap pages own attrs condition).Calm ↔ (own = true → SelectCalm pages condition attrs) := by
  constructor
  · intro calm is_own
    refine calm.imp id fun all k e at_k => ?_
    have pair : (selectDerivation heap pages own attrs condition).pairs[k]? = some (loneRecord,e) := by
      rw [selectDerivation_pairs,List.getElem?_map,at_k]
      rfl
    have unmet := ((all k loneRecord e pair [] [] rfl).inner is_own).1
    rw [same is_own]
    exact unmet
  · intro calm
    cases own with
    | false => exact .inr fun _ _ _ _ _ _ _ => ⟨nofun,nofun,nofun⟩
    | true =>
      refine (calm rfl).imp id fun all k o e at_k front later split => ?_
      rw [selectDerivation_pairs,List.getElem?_map] at at_k
      obtain ⟨e',found,same_pair⟩ := Option.map_eq_some_iff.mp at_k
      obtain ⟨rfl,rfl⟩ := Prod.mk.inj same_pair
      have alone : [loneRecord] = front ++ loneRecord::later := split
      have length := congrArg List.length alone
      rw [List.length_singleton,List.length_append,List.length_cons] at length
      obtain rfl := List.eq_nil_of_length_eq_zero (show later.length = 0 by omega)
      have unmet := all k e' found
      rw [same rfl] at unmet
      exact ⟨fun _ => ⟨unmet,nofun⟩,nofun,nofun⟩

theorem lone_remaining {c : Cursor} (whole : c.heap = [(0,[some []])]) (next : c.next = 1) : c.remaining = [] := by
  obtain ⟨before,p,slots,after,next'⟩ := c
  obtain ⟨rfl,one⟩ | ⟨_,_,rest⟩ := List.append_eq_cons_iff.mp whole
  · cases one
    cases next
    rfl
  · simp at rest

theorem selectDerivation_derives (heap pages : Heap) (own : Bool) (attrs : List AttrDesc)
    (condition : Option Condition) :
    Derives (selectDerivation heap pages own attrs condition) condition loneRecord fun rec => project rec attrs := by
  refine ⟨fun _ => rfl,fun bytes data made => ?_,fun rec a failed => ?_⟩
  · rw [project_join []] at made
    obtain ⟨is_gathered,length⟩ := joinRecord_of made
    have one_source : sourceOf [] bytes bytes = fun _ => bytes := funext fun d => ite_self _
    rw [one_source] at is_gathered
    refine ⟨is_gathered,?_⟩
    change data.length = (attrs.map AttrDesc.attrLen).sum.toNat
    omega
  · rw [project_join []] at failed
    rw [joinRecord_stops failed]
    exact Abort.noConfusion

theorem selectDerivation_files (stands : db.Stands shelf) (present : shelf source = some file)
    (at_result : shelf result = some target) (some_attr : attrs ≠ [])
    (inside : ∀ e ∈ records file.heap, ∀ d ∈ attrs, Inside d e.2) (condition : Option Condition) :
    FeedingFiles (selectDerivation target.heap file.heap (source = result) attrs condition) shelf source result
      file.books.first target.books.first := by
  refine ⟨⟨Bool.noConfusion,own_pages present at_result,List.nodup_singleton loneRecord⟩,?_,rfl,stands.owned,
    shows_of_present present,shows_of_present at_result⟩
  intro some_pair
  rw [selectDerivation_pairs] at some_pair
  obtain ⟨p,member⟩ := List.exists_mem_of_ne_nil _ some_pair
  obtain ⟨e,found,_⟩ := List.mem_map.mp member
  exact width_positive some_attr (inside e (List.mem_filter.mp found).1)

theorem ScanSelect_ends (stands : db.Stands shelf) (present : shelf source = some file)
    (at_result : shelf result = some target) (some_attr : attrs ≠ []) (from_source : ∀ d ∈ attrs, d.relName = source)
    (inside : ∀ e ∈ records file.heap, ∀ d ∈ attrs, Inside d e.2) (atof : List UInt8 → List UInt8)
    (attrDesc : Option AttrDesc) (op : Operator) (filter : List UInt8) (turns : Nat) :
    let q := selectDerivation target.heap file.heap (source = result) attrs (selectCondition atof attrDesc op filter)
    (∃ a, (a = .diverges → q.Calm → turns ≤ q.tuples.length) ∧
      ScanSelect atof turns db result attrs attrDesc op filter = .error a) ∨
    ∃ status db', ScanSelect atof turns db result attrs attrDesc op filter = .ok (status,db') ∧
      q.Ends shelf result target status db' := by
  intro q
  obtain ⟨first,rest,cons⟩ := List.exists_cons_of_ne_nil some_attr
  have head : attrs.head? = some first := by rw [cons]; rfl
  obtain rfl : first.relName = source := from_source first (by rw [cons]; exact List.mem_cons_self ..)
  have files := selectDerivation_files stands present at_result some_attr inside (selectCondition atof attrDesc op filter)
  obtain ⟨db1,s,c,made,stands1,at_s,whole,all,clear⟩ := stands.open_with_scan files.at_source
  obtain ⟨db2,rel,before,n,d,madeT,split,stands2,at_rel⟩ :=
    stands1.open_with_insert (files.at_result.withScan first.relName s c)
  rw [← Shelf.withInsert_withScan] at stands2
  obtain ⟨t,rfl,rfl,pages,count⟩ : ∃ t : Tail, t.last = n ∧ t.slots = d ∧ t.heap = target.heap ∧
      t.recCnt = target.recCnt := ⟨⟨before,n,d,target.recCnt⟩,rfl,rfl,split.symm,rfl⟩
  have filling := Filling.start stands present at_result pages count stands2 at_s at_rel whole
  have goes : q.Goes t (records q.outer) q.pairs q.tuples.length :=
    Derivation.Goes.start pages.symm (stands.records_nodup at_result).1
  rcases ScanSelect_opened head made clear madeT atof attrDesc op filter turns with begun | refused
  · rw [begun,selectLoop_turns]
    have start : q.pairs = q.leftAt t loneRecord ⟨[],0,[some []],[],1⟩ c := by
      rw [Derivation.leftAt,Derivation.left,all]
      rfl
    rw [start] at goes
    have feeding : Feeding q shelf first.relName result file.books.first target.books.first
        (selectCondition atof attrDesc op filter) loneRecord t ⟨[],0,[some []],[],1⟩ c
        (db2,{s with filter := selectCondition atof attrDesc op filter},rel) :=
      ⟨⟨filling.stands,⟨at_s.headerPage,at_s.headerPageNo,at_s.curPage,at_s.curPageNo,at_s.slot⟩,filling.insert,
        filling.whole,filling.nodup⟩,rfl,⟨rfl,⟨0,rfl,rfl,rfl⟩,filling.whole⟩⟩
    rcases (selectTurns_feeds first.relName result attrs).run (selectDerivation_derives _ _ _ _ _) files turns
        ⟨_,_,_,feeding,rfl,rfl,goes,fun _ => Nat.le_refl _⟩ with
      ⟨few,out⟩ | ⟨a,other,out⟩ | ⟨status,⟨db3,s3,rel3⟩,looped,t',co,c3,feeding3,_,next,fine,part⟩
    · exact .inl ⟨.diverges,fun _ => few,by rw [out]; rfl⟩
    · exact .inl ⟨a,fun diverged => absurd diverged other,by rw [out]; rfl⟩
    · have filling3 := feeding3.filling
      obtain ⟨s4,db4,db5,ended,deleted,stands5⟩ := filling3.stands.finish_scan
        ((files.owned.refill _ _ _).withInsert _ _ _) (filling3.shows_source files.at_source files.at_result)
        filling3.scan
      obtain ⟨db6,closed,stands6⟩ := filling3.close stands at_result stands5
      refine .inr ⟨status,db6,?_,t',stands6,fun ok => ?_,part⟩
      · rw [looped,ok_bind]
        dsimp only
        rw [pure_ok,ok_bind]
        dsimp only
        rw [ended,ok_bind]
        dsimp only
        rw [deleted,ok_bind,closed]
        rfl
      · obtain ⟨m,goes3,_⟩ := fine ok
        rw [lone_remaining feeding3.places.outer next] at goes3
        exact ⟨_,m,goes3⟩
  · obtain ⟨db3,deleted,stands3⟩ := filling.stands.close_scan ((files.owned.refill _ _ _).withInsert _ _ _)
      (filling.shows_source files.at_source files.at_result) filling.scan
    obtain ⟨db4,closed,stands4⟩ := filling.close stands at_result stands3
    refine .inr ⟨.badScanParm,db4,?_,t,stands4,Status.noConfusion,goes.first_part⟩
    rw [refused,deleted,ok_bind,closed]
    rfl

end ends

variable {atof : List UInt8 → List UInt8} {db : Db} {shelf : Shelf} {target : HeldFile} {result : Name} {query : Query}
  {derived : List (List UInt8)} {calm : Prop}

theorem Query.Over.goes (posed : query.Over atof db shelf target result derived calm) :
    ∃ bound, ∀ turns, (∃ a, (a = .diverges → calm → turns ≤ bound) ∧ query.run atof turns db result = .error a) ∨
      ∃ status db', query.run atof turns db result = .ok (status,db') ∧
        (calm → DerivedOnly shelf result target derived db') ∧
        (status = .ok → DerivedOnly shelf result target derived db' → calm) := by
  cases posed with
  | select cat file source infos attrs attr attrDesc op attrValue query =>
    refine ⟨(selected file.heap (selectCondition atof attrDesc op attrValue) attrs).length,fun turns => ?_⟩
    obtain ⟨db1,stands1,looked⟩ := QU_Select_looked query atof op attrValue turns
    have listed := Found.listed query.found
    rw [Query.run,looked]
    cases total : recLen attrs with
    | error a =>
      cases recLen_error total
      exact .inl ⟨.undefined,Abort.noConfusion,rfl⟩
    | ok total' =>
      have calm_iff := selectDerivation_calm target.heap file.heap (source = result) attrs
        (selectCondition atof attrDesc op attrValue) (own_pages query.at_source query.at_result)
      rw [decide_eq_true_eq] at calm_iff
      rw [← calm_iff,← selectDerivation_tuples target.heap file.heap (source = result)]
      rcases ScanSelect_ends stands1 query.at_source query.at_result query.some_desc
        (fun d member => attributes_relName (listed d member))
        (fun e member d chosen => query.laid e member d (listed d chosen))
        atof attrDesc op attrValue turns with ⟨a,few,out⟩ | ⟨status,db',ran,ends⟩
      · exact .inl ⟨a,few,out⟩
      · refine .inr ⟨status,db',ran,ends.derived rfl,?_⟩
        rintro rfl
        exact ends.calm rfl
  | join cat file1 file2 one two infos attrs attr1 attr2 d1 d2 op query =>
    refine ⟨(records file1.heap).length + (joined one attrs d1 d2 op (records file1.heap) file2.heap).length,
      fun turns => ?_⟩
    have nothing : DerivedOnly shelf result target (joined one attrs d1 d2 op (records file1.heap) file2.heap) db := by
      refine ⟨target,[],?_,rfl,Gains.none _,List.nil_prefix⟩
      rw [← query.at_result,Function.update_eq_self]
      exact query.stands
    by_cases differ : attr1.attrType ≠ attr2.attrType ∨ attr1.attrLen ≠ attr2.attrLen
    · refine .inr ⟨.attrTypeMismatch,db,?_,fun _ => nothing,Status.noConfusion⟩
      rw [Query.run,QU_NL_Join,if_pos differ]
      rfl
    have agree : attr1.attrType = attr2.attrType ∧ attr1.attrLen = attr2.attrLen := by
      simpa only [not_or,not_not] using differ
    rw [imp_iff_right agree]
    rcases QU_NL_Join_looked query op turns with mismatch | ⟨db1,stands1,looked⟩
    · exact .inr ⟨_,db,mismatch,fun _ => nothing,Status.noConfusion⟩
    · rw [Query.run,looked]
      cases total : recLen attrs with
      | error a =>
        cases recLen_error total
        exact .inl ⟨.undefined,Abort.noConfusion,rfl⟩
      | ok total' =>
        rw [← joinDerivation_tuples target.heap _ _ (one = result) (two = result)]
        rcases joinScan_ends stands1 (attributes_relName (attrOf_mem query.found1.attr).1)
          (attributes_relName (attrOf_mem query.found2.attr).1) query.at_one query.at_two query.at_result
          query.some_desc query.inside op turns with ⟨a,few,out⟩ | ⟨status,db',ran,ends⟩
        · exact .inl ⟨a,few,out⟩
        · refine .inr ⟨status,db',ran,ends.derived rfl,?_⟩
          rintro rfl
          exact ends.calm rfl

-- A query that derives nothing from its own tuples ends after so many turns, and what it has added is
-- derived from the records it began with. Of those that return OK it is the only one to add no others.
theorem queries_terminate (atof : List UInt8 → List UInt8) (db : Db) (shelf : Shelf) (target : HeldFile)
    (result : Name) (query : Query)
    (derived : List (List UInt8)) (calm : Prop) (posed : query.Over atof db shelf target result derived calm) :
    (calm → (∃ enough, ∀ turns, enough ≤ turns → query.run atof turns db result ≠ .error .diverges) ∧
      ∀ turns status db', query.run atof turns db result = .ok (status,db') →
        DerivedOnly shelf result target derived db') ∧
    ∀ turns db', query.run atof turns db result = .ok (.ok,db') →
      (DerivedOnly shelf result target derived db' ↔ calm) := by
  obtain ⟨bound,goes⟩ := posed.goes
  have returned : ∀ {turns status db'}, query.run atof turns db result = .ok (status,db') →
      (calm → DerivedOnly shelf result target derived db') ∧
        (status = .ok → DerivedOnly shelf result target derived db' → calm) := by
    intro turns status db' ran
    rcases goes turns with ⟨a,_,out⟩ | ⟨status1,db1,done,only⟩
    · cases ran.symm.trans out
    · cases ran.symm.trans done
      exact only
  refine ⟨fun is_calm => ⟨⟨bound + 1,fun turns enough diverged => ?_⟩,fun turns status db' ran =>
    (returned ran).1 is_calm⟩,
    fun turns db' ran => ⟨(returned ran).2 rfl,(returned ran).1⟩⟩
  rcases goes turns with ⟨a,few,out⟩ | ⟨status,db',done,_⟩
  · have diverges := Except.error.inj (out.symm.trans diverged)
    have short := few diverges is_calm
    omega
  · cases done.symm.trans diverged

-- Relation R has the int attributes a, b and c and the record (1,b,0).
def chainTables (b : UInt8) : List (Name × List (List UInt8)) :=
  [(attrCatName,[AttrDesc.bytes ⟨[82],[97],0,1,4⟩,AttrDesc.bytes ⟨[82],[98],4,1,4⟩,AttrDesc.bytes ⟨[82],[99],8,1,4⟩]),
    ([82],[[1,0,0,0,b,0,0,0,0,0,0,0]])]

def chainDb (b : UInt8) : Db := Db.holding (fun _ _ => zero 1024) ⟨HeapFile.fresh 0 0,none,0,nullRid⟩ (chainTables b)

-- SELECT R.b, R.c, R.c INTO R WHERE R.a = 1.
def chainQuery : Query := .select [⟨[82],[98],-1,-1,none⟩,⟨[82],[99],-1,-1,none⟩,⟨[82],[99],-1,-1,none⟩]
    (some ⟨[82],[97],1,-1,some [49]⟩) .eq [49]

def chainCondition : Option Condition := selectCondition id (some ⟨[82],[97],0,1,4⟩) .eq [49]

def chainAttrs : List AttrDesc := [⟨[82],[98],4,1,4⟩,⟨[82],[99],8,1,4⟩,⟨[82],[99],8,1,4⟩]

theorem chainQuery_over {b : UInt8} (loads : Db.Loads (fun _ _ => zero 1024) (chainTables b)) :
    ∃ (shelf : Shelf) (r : HeldFile), shelf [82] = some r ∧
      (records r.heap).map Prod.snd = [[1,0,0,0,b,0,0,0,0,0,0,0]] ∧
      chainQuery.Over id (chainDb b) shelf r [82] (selected r.heap chainCondition chainAttrs)
        (([82] : Name) = [82] → SelectCalm r.heap chainCondition chainAttrs) := by
  obtain ⟨shelf,stands,listed⟩ := Db.holding_stands loads
  obtain ⟨cat,catalog,rows⟩ := listed attrCatName _ rfl
  obtain ⟨r,at_r,recs⟩ := listed [82] _ rfl
  have attrs : attributes cat.heap [82] = [⟨[82],[97],0,1,4⟩,⟨[82],[98],4,1,4⟩,⟨[82],[99],8,1,4⟩] := by
    rw [attributes_of_bytes rows]; decide
  have found : List.Forall₂ (Found cat.heap [82]) [⟨[82],[98],-1,-1,none⟩,⟨[82],[99],-1,-1,none⟩,⟨[82],[99],-1,-1,none⟩]
      chainAttrs :=
    .cons ⟨rfl,by decide,by rw [attrOf,attrs]; decide⟩ (.cons ⟨rfl,by decide,by rw [attrOf,attrs]; decide⟩
      (.cons ⟨rfl,by decide,by rw [attrOf,attrs]; decide⟩ .nil))
  have chosen : Option.Rel (Found cat.heap [82]) (some ⟨[82],[97],1,-1,some [49]⟩) (some ⟨[82],[97],0,1,4⟩) :=
    .some ⟨rfl,by decide,by rw [attrOf,attrs]; decide⟩
  have laid : ∀ e ∈ records r.heap, ∀ d ∈ attributes cat.heap [82], Inside d e.2 :=
    laid_of_bytes attrs recs (by simp [Inside])
  have query : SelectQuery (chainDb b) shelf cat r r [82] [82] _ _ _ _ :=
    ⟨stands,catalog,rows_of_bytes rows (by decide),by decide,at_r,at_r,laid,by decide,found,chosen⟩
  exact ⟨shelf,r,at_r,recs,.select cat r [82] _ _ _ _ .eq [49] query⟩

-- From (1,2,0) comes (2,0,0), which the scan comes to and leaves.
theorem queries_terminate_own_source : ∃ (shelf : Shelf) (r : HeldFile) (db' : Db), shelf [82] = some r ∧
    chainQuery.run id 5 (chainDb 2) [82] = .ok (.ok,db') ∧ DerivedOnly shelf [82] r [[2,0,0,0,0,0,0,0,0,0,0,0]] db' ∧
    ∃ enough, ∀ turns, enough ≤ turns → chainQuery.run id turns (chainDb 2) [82] ≠ .error .diverges := by
  obtain ⟨shelf,r,at_r,recs,posed⟩ := chainQuery_over (b:=2) (by decide +kernel)
  obtain ⟨db',ran⟩ := Db.exists_ok (by decide +kernel : (chainQuery.run id 5 (chainDb 2) [82]).toOption.map Prod.fst =
    some .ok)
  have calm : SelectCalm r.heap chainCondition chainAttrs := by
    refine .inr fun k e at_k => .inr ?_
    have member : e.2 ∈ (records r.heap).map Prod.snd :=
      List.mem_map_of_mem (List.mem_filter.mp (List.mem_of_getElem? at_k)).1
    rw [recs,List.mem_singleton] at member
    rw [member]
    decide
  obtain ⟨ends,exactly⟩ := queries_terminate id (chainDb 2) shelf r [82] chainQuery _ _ posed
  have derived := (exactly 5 db' ran).mpr fun _ => calm
  rw [selected_of_bytes,recs] at derived
  exact ⟨shelf,r,db',at_r,ran,derived,(ends fun _ => calm).1⟩

-- From (1,1,0) comes (1,0,0), and from that, which the scan comes to as well, (0,0,0).
theorem query_meets_its_own : ∃ (shelf : Shelf) (r : HeldFile) (calm : Prop) (db' : Db), shelf [82] = some r ∧
    chainQuery.Over id (chainDb 1) shelf r [82] [[1,0,0,0,0,0,0,0,0,0,0,0]] calm ∧
      chainQuery.run id 5 (chainDb 1) [82] = .ok (.ok,db') ∧
    ¬ DerivedOnly shelf [82] r [[1,0,0,0,0,0,0,0,0,0,0,0]] db' := by
  obtain ⟨shelf,r,at_r,recs,posed⟩ := chainQuery_over (b:=1) (by decide +kernel)
  rw [selected_of_bytes,recs] at posed
  obtain ⟨db',ran,left⟩ := Db.exists_ok_contents
      (by decide +kernel : ((chainQuery.run id 5 (chainDb 1) [82]).toOption.bind fun r =>
    (r.2.contents [82]).toOption.map fun recs => (r.1,recs)) =
      some (.ok,[[1,0,0,0,1,0,0,0,0,0,0,0],[1,0,0,0,0,0,0,0,0,0,0,0],[0,0,0,0,0,0,0,0,0,0,0,0]]))
  refine ⟨shelf,r,_,db',at_r,posed,ran,?_⟩
  rintro ⟨target',new,stands',_,gains,part⟩
  rw [Db.contents_spec stands' (Function.update_self ..)] at left
  have three := congrArg List.length (Except.ok.inj left)
  have one := congrArg List.length recs
  have few := part.length_le
  have count := gains.perm.length_eq
  rw [List.length_map] at three one
  rw [List.length_append,List.length_map,List.length_map] at count
  simp only [List.length_cons,List.length_nil] at three one few
  omega

end Minirel
