import Minirel.QueryRoom
import Mathlib.Data.Multiset.Bind
import Mathlib.Data.Multiset.Filter

namespace Minirel
open ByteMemory SlotDirectory Page Heap Db

-- The records of a file in no order.
def Heap.bag (heap : Heap) : Multiset (List UInt8) := ((records heap).map Prod.snd : List (List UInt8))

-- A file has these records now, on no more pages than so many, and is as open as it was.
def Rewritten (shelf : Shelf) (name : Name) (file : HeldFile) (tuples : Multiset (List UInt8)) (length : Nat)
    (db' : Db) : Prop :=
  ∃ file', db'.Stands (Function.update shelf name (some file')) ∧ file'.books = file.books ∧ file'.heap.bag = tuples ∧
    db'.length name ≤ length

variable {db db' : Db} {shelf : Shelf} {base : Db} {relation : Name} {file cat : HeldFile} {new : List (List UInt8)}
  {length : Nat}
  {b : Pool} {k : Pool.Books} {recCnt : Int} {attrs : List AttrDesc}

theorem Gains.bag {heap heap' : Heap} (gains : Gains heap heap' new) :
    heap'.bag = heap.bag + (new : Multiset (List UInt8)) := by
  rw [Heap.bag,Heap.bag,Multiset.coe_add,Multiset.coe_eq_coe]
  exact gains.perm

theorem Heap.bag_filter {heap heap' : Heap} (wanted : List UInt8 → Prop) [DecidablePred wanted]
    (left : records heap' = (records heap).filter fun e => wanted e.2) : heap'.bag = heap.bag.filter wanted := by
  rw [Heap.bag,Heap.bag,left,Multiset.filter_coe,List.filter_map]
  rfl

theorem Fills.rewritten (fills : Fills shelf relation file new length db') :
    Rewritten shelf relation file (file.heap.bag + new) (length + new.length) db' := by
  obtain ⟨file',stands,books,gains,bound⟩ := fills
  exact ⟨file',stands,books,gains.bag,bound⟩

section delete

-- No page is given back.
theorem deleteLoop_length (db : Db) (relation : Name) {s : HeapFileScan} {c : Cursor} (turns : Nat) (owned : k.Owned)
    (scanning : HeapFileScan.Scanning k recCnt b s c) :
    Ends (fun r => r.2.2.length relation = b.file.length) (deleteLoop relation turns (db.setPool relation b) s) := by
  induction turns generalizing b s c recCnt with
  | zero => exact .throw _
  | succ turns ih =>
    obtain ⟨b1,s1,c1,moves,finds⟩ := HeapFileScan.scanNext_spec owned scanning
    have length1 : b1.file.length = b.file.length := scanning.kept.length_of_view moves.scanning.kept moves.view
    rw [deleteLoop]
    generalize found : HeapFileScan.scanNext b s = outcome at finds
    cases finds with
    | eof passed done =>
      rw [Db.scanNext_at found,ok_bind]
      refine .ok ?_
      rw [length_setPool]
      exact length1
    | record skipped bytes remaining passed accepted current =>
      obtain ⟨b2,s2,c2,deleted,scanning2,_⟩ := HeapFileScan.deleteRecord_live moves.scanning current rfl
      have length2 : b2.file = b1.file := deleteRecord_file deleted
      rw [Db.scanNext_at found,ok_bind]
      dsimp only
      rw [Db.deleteRecord_at deleted,ok_bind]
      dsimp only
      rw [if_neg (not_not_intro rfl),← length1,← length2]
      exact ih scanning2

-- The loop over a scan that has just been started, and what follows it.
theorem deleteLoop_rewrites {old : Option HeldFile} {s : HeapFileScan} {c : Cursor}
    (stands : db.Stands (Function.update shelf relation old))
    (named : relation ≠ []) (owned : file.books.Owned)
    (scanning : HeapFileScan.Scanning file.books.opened file.recCnt b s c)
    (whole : c.heap = file.heap) (all : c.remaining = records file.heap) :
    ∃ s3 b3 s4 b4 b5, deleteLoop relation ((db.setPool relation b).turns relation) (db.setPool relation b) s =
      .ok (.ok,s3,db.setPool relation b3) ∧
      (db.setPool relation b3).endScan relation s3 = .ok (.ok,s4,db.setPool relation b4) ∧
      (db.setPool relation b4).deleteHeapFileScan relation s4 = .ok (db.setPool relation b5) ∧
      Rewritten shelf relation file (file.heap.bag.filter fun bytes => ¬ s.matchRec (.of bytes)) b.file.length
        (db.setPool relation b5) := by
  have owned' : file.books.opened.Owned := owned
  obtain ⟨s3,b3,c3,recCnt3,looped,scanning3,left⟩ := deleteLoop_whole db relation owned' scanning (by rw [all,whole])
  have same : b3.file.length = b.file.length := by
    rw [← length_setPool db relation b3]
    exact deleteLoop_length db relation _ owned' scanning _ looped
  obtain ⟨s4,b4,b5,ended,deleted,kept5,view5⟩ := db.end_spec relation owned scanning3
  have back := stands.put (b:=b5) ⟨file.books,c3.heap,recCnt3⟩
    (holds_setPool named owned kept5 (by rw [view5]; exact scanning3.stored))
  rw [Function.update_idem] at back
  refine ⟨s3,b3,s4,b4,b5,looped,ended,deleted,⟨file.books,c3.heap,recCnt3⟩,back,rfl,?_,?_⟩
  · rw [whole] at left
    exact Heap.bag_filter (fun bytes => ¬ s.matchRec (.of bytes)) left
  · rw [length_setPool,scanning3.kept.length_of_view kept5 view5]
    exact same.le

theorem QU_Delete_rewrites (atof : List UInt8 → List UInt8) (stands : db.Stands shelf)
    (catalog : shelf attrCatName = some cat)
    (wide : Rows cat.heap AttrDesc.size) (present : shelf relation = some file) (clean : 0 ∉ relation)
    (apart : relation ≠ attrCatName)
    {attrName : Name} {d : AttrDesc} (found : attrName ≠ [] → attrOf cat.heap relation attrName = some d)
    (op : Operator) (type : Datatype)
    (attrValue : List UInt8) (attrDesc : AttrDesc) (sound : attrName ≠ [] →
      (deleteCondition atof d op type attrValue).Sound) :
    ∃ db', QU_Delete atof db relation attrName op type attrValue attrDesc = .ok (.ok,db') ∧
      Rewritten shelf relation file (file.heap.bag.filter fun bytes => ¬ (attrName = [] ∨
        (deleteCondition atof d op type attrValue).matchRec (.of bytes)))
        (db.length relation) db' := by
  have holds := stands relation file present
  obtain ⟨old,found_old,kept_old,_⟩ := holds.2.2
  obtain ⟨b1,s1,c1,made,scanning,whole,all,clear,view⟩ := newHeapFileScan_view holds found_old
  have length1 : b1.file.length = db.length relation := by
    rw [kept_old.length_of_view scanning.kept view,Db.length,found_old]
    rfl
  -- The catalog is asked beside the open scan, or not at all.
  obtain ⟨db2,status,d',asked,stands2,described⟩ : ∃ db2 status d', AttrCatalog.getInfo
    (db.setPool relation b1) relation attrName attrDesc =
      .ok (status,d',Db.setPool db2 relation b1) ∧ db2.Stands shelf ∧ (attrName ≠ [] → d' = d) := by
    by_cases given : attrName = []
    · refine ⟨db,.badCatParm,attrDesc,?_,stands,fun not_given => absurd given not_given⟩
      rw [AttrCatalog.getInfo,if_pos (.inr given)]
      rfl
    · have held := (stands attrCatName cat catalog).setPool_other b1 apart.symm
      obtain ⟨b2,asked,named2,owned2,there,found2,kept2,stored2⟩ :=
        AttrCatalog.getInfo_spec held wide clean holds.1 given attrDesc
      cases (setPool_same (db.setPool relation b1) attrCatName b2).symm.trans found2
      rw [found given] at asked
      refine ⟨db.setPool attrCatName b2,.ok,d,?_,stands.same catalog (holds_setPool named2 owned2 kept2 stored2),fun _ => rfl⟩
      rw [Db.setPool_comm _ _ _ apart.symm]
      exact asked
  have held2 : db2.Stands (Function.update shelf relation (some file)) := by rwa [← present,Function.update_eq_self]
  have started : (if attrName = [] then s1.startScan 0 0 (some .string) none .eq
      else s1.startScan d'.attrOffset d'.attrLen (some type) (some (searchValue atof type attrValue)) op) =
        (.ok,{s1 with filter := if attrName = [] then none else some (deleteCondition atof d op type attrValue)}) := by
    by_cases given : attrName = []
    · rw [if_pos given,if_pos given,HeapFileScan.startScan]
    · rw [if_neg given,if_neg given,described given]
      exact s1.startScan_sound (sound given)
  obtain ⟨s3,b3,s4,b4,b5,looped,ended,deleted,rewritten⟩ := deleteLoop_rewrites held2 holds.1 holds.2.1
    (scanning.filtered (if attrName = [] then none else some (deleteCondition atof d op type attrValue))) whole all
  refine ⟨db2.setPool relation b5,?_,?_⟩
  · rw [QU_Delete,made,ok_bind]
    dsimp only
    rw [if_neg (not_not_intro rfl),asked,ok_bind]
    dsimp only
    rw [started]
    dsimp only
    rw [if_neg (not_not_intro rfl),looped,ok_bind]
    dsimp only
    rw [if_neg (not_not_intro rfl),ended,ok_bind]
    dsimp only
    rw [deleted]
    rfl
  · rw [length1] at rewritten
    have same : ∀ bytes, HeapFileScan.matchRec {s1 with filter := if attrName = [] then none else some (deleteCondition atof d op type attrValue)}
        (.of bytes) = true ↔ attrName = [] ∨ (deleteCondition atof d op type attrValue).matchRec (.of bytes) := by
      intro bytes
      by_cases given : attrName = [] <;> simp [HeapFileScan.matchRec,given]
    simpa only [same] using rewritten

end delete

section insert

variable {attrList : List AttrInfo} {atof : List UInt8 → List UInt8}

theorem InsertTarget.QU_Insert_room (target : InsertTarget db shelf cat file relation attrs)
    (checked : Checked attrs attrList)
    (readable : Readable atof attrList attrs) (stack : List UInt8) (narrow : Narrow attrs)
    (room : db.length relation < 2 ^ 31) :
    ∃ db', QU_Insert atof stack db relation attrList = .ok (.ok,db') ∧
      Fills shelf relation file [tuple atof stack attrList attrs] (db.length relation) db' := by
  obtain ⟨s,before,n,d,b1,db2,b,made,asked,split,inserting,writes,b0,found,same⟩ := target.opened
  have laid := target.laid
  have size := laid.length_tuple stack readable
  have positive := laid.width_pos
  have fits : width attrs + slotSize ≤ dataSize := narrow.fits
  have some_bytes : tuple atof stack attrList attrs ≠ [] := by
    rintro empty
    rw [empty,List.length_nil] at size
    omega
  have length_b : b.file.length = db.length relation := by
    rw [same,Db.length,found]
    rfl
  have owned : file.books.opened.Owned := writes.owned
  obtain ⟨rid,s',b',recCnt',before',n',d',ran,inserting',appending,longer⟩ :=
    InsertFileScan.insertRecord_room owned some_bytes
    (by omega) (by rw [length_b]; exact room) inserting (Appending.start split)
  have writes' : (db2.setPool relation b').Writes shelf relation file s' before' n' d' recCnt' := by
    have again := writes.stands.writes writes.named writes.owned inserting'
    rwa [Db.setPool_setPool] at again
  obtain ⟨db',deleted,fills⟩ := writes'.fills (db.length relation) appending.gains
    (by rw [length_setPool,← length_b]; exact longer)
  refine ⟨db',?_,fills⟩
  have no_null : ¬ ∃ attr ∈ attrList, attr.attrValue = none := by
    rintro ⟨attr,member,absent⟩
    exact checked.2 attr member absent
  rw [QU_Insert,made,ok_bind]
  dsimp only
  rw [if_neg (not_not_intro rfl),insertInto,asked,ok_bind]
  dsimp only
  rw [if_neg (not_not_intro rfl),if_neg (not_not_intro checked.1),laid.recLen,ok_bind,if_neg no_null,
    laid.populates stack readable,ok_bind,
    Db.insertRecord_at ran,ok_bind]
  dsimp only
  rw [pure_ok,ok_bind]
  dsimp only
  rw [deleted]
  rfl

-- A list of another length than the relation's is refused, and the object goes as it came.
theorem InsertTarget.QU_Insert_refused (target : InsertTarget db shelf cat file relation attrs)
    (miscounted : attrList.length ≠ attrs.length)
    (stack : List UInt8) :
    ∃ db', QU_Insert atof stack db relation attrList = .ok (.badCatParm,db') ∧
      Fills shelf relation file [] (db.length relation) db' := by
  obtain ⟨s,before,n,d,b1,db2,b,made,asked,split,inserting,writes,b0,found,same⟩ := target.opened
  have bound : (db2.setPool relation b).length relation ≤ db.length relation + ([] : List (List UInt8)).length := by
    rw [length_setPool,same,Db.length,found]
    exact le_rfl
  obtain ⟨db',deleted,fills⟩ := writes.fills _ (split ▸ Gains.none file.heap) bound
  refine ⟨db',?_,fills⟩
  rw [QU_Insert,made,ok_bind]
  dsimp only
  rw [if_neg (not_not_intro rfl),insertInto,asked,ok_bind]
  dsimp only
  rw [if_neg (not_not_intro rfl),if_pos miscounted,pure_ok,ok_bind]
  dsimp only
  rw [deleted]
  rfl

end insert

section load

-- The tuples that come before the first read that is no whole tuple, when so many turns are enough to see it.
def DataFile.tuples (reads : Nat → Option (List UInt8)) (width : Int) : Nat → Nat → Option (List (List UInt8))
  | 0,_ => none
  | turns+1,done =>
    match reads done with
    | none => some []
    | some record => if record.length ≠ width then some [] else (tuples reads width turns (done + 1)).map (record::·)

theorem DataFile.tuples_wide {reads : Nat → Option (List UInt8)} {width : Int} {turns done : Nat}
    {rows : List (List UInt8)}
    (read : tuples reads width turns done = some rows) : ∀ t ∈ rows, (t.length : Int) = width := by
  induction turns generalizing done rows with
  | zero => cases read
  | succ turns ih =>
    rw [tuples] at read
    split at read
    · cases read
      exact fun t member => nomatch member
    · split at read
      · cases read
        exact fun t member => nomatch member
      · rename_i record _ whole
        obtain ⟨rest,later,rfl⟩ := Option.map_eq_some_iff.mp read
        intro t member
        rcases List.mem_cons.mp member with rfl | behind
        · exact not_not.mp whole
        · exact ih later t behind

theorem loadLoop_room (db : Db) (relation : Name) {reads : Nat → Option (List UInt8)} {width : Int}
    {s : InsertFileScan} {heap before : Heap}
    {n : Int} {d : Slots} {done : Nat} {rows : List (List UInt8)} (owned : k.Owned) (positive : 1 ≤ width)
    (narrow : width + slotSize ≤ dataSize)
    (turns : Nat) (inserting : InsertFileScan.Inserting k recCnt b s before n d)
    (appending : Appending heap before n d new)
    (read : DataFile.tuples reads width turns done = some rows) (room : b.file.length + rows.length ≤ 2 ^ 31) :
    ∃ s' b' recCnt' before' n' d', loadLoop reads relation width turns done (db.setPool relation b) s =
      .ok (.ok,s',db.setPool relation b') ∧
      InsertFileScan.Inserting k recCnt' b' s' before' n' d' ∧ Appending heap before' n' d' (new ++ rows) ∧
      b'.file.length ≤ b.file.length + rows.length := by
  induction turns generalizing b s before n d new recCnt done rows with
  | zero => cases read
  | succ turns ih =>
    rw [DataFile.tuples] at read
    rw [loadLoop]
    cases at_done : reads done with
    | none =>
      rw [at_done] at read
      cases read
      rw [List.append_nil]
      exact ⟨s,b,recCnt,before,n,d,rfl,inserting,appending,le_rfl⟩
    | some record =>
      rw [at_done] at read
      dsimp only at read ⊢
      by_cases short : (record.length : Int) ≠ width
      · rw [if_pos short] at read ⊢
        cases read
        rw [List.append_nil]
        exact ⟨s,b,recCnt,before,n,d,rfl,inserting,appending,le_rfl⟩
      · rw [if_neg short] at read ⊢
        obtain ⟨rest,later,rfl⟩ := Option.map_eq_some_iff.mp read
        rw [List.length_cons] at room
        have some_bytes : record ≠ [] := by
          rintro rfl
          rw [List.length_nil] at short
          omega
        obtain ⟨rid,s1,b1,recCnt1,before1,n1,d1,ran,inserting1,appending1,longer⟩ :=
          InsertFileScan.insertRecord_room owned some_bytes (by omega) (by omega) inserting appending
        obtain ⟨s2,b2,recCnt2,before2,n2,d2,looped,inserting2,appending2,bound⟩ :=
          ih inserting1 appending1 later (by omega)
        refine ⟨s2,b2,recCnt2,before2,n2,d2,?_,inserting2,?_,?_⟩
        · rw [Db.insertRecord_at ran,ok_bind]
          exact looped
        · rwa [List.append_assoc] at appending2
        · rw [List.length_cons]
          omega

theorem Catalogued.UT_Load_room {schema : Schema} (catalogued : Catalogued db shelf schema) (clean : 0 ∉ relation)
    (given : relation ≠ [])
    (not_rel : relation ≠ relCatName) (not_attr : relation ≠ attrCatName) (declared : schema relation ≠ none)
    (present : shelf relation = some file)
    (narrow : Narrow (schema.described relation)) {fileName : Name} (named : fileName ≠ []) (fd : DataFile)
    (turns : Nat) {rows : List (List UInt8)}
    (read : DataFile.tuples fd.reads ((schema.described relation).map AttrDesc.attrLen).sum turns 0 = some rows)
    (room : db.length relation + rows.length ≤ 2 ^ 31) :
    ∃ status db', UT_Load turns db relation fileName (some fd) = .ok (status,db') ∧
      Fills shelf relation file rows (db.length relation) db' := by
  obtain ⟨b1,asked,catalogued1⟩ := catalogued.relInfo clean given ⟨[],0⟩
  obtain ⟨b2,listed,catalogued2⟩ := catalogued1.relAttrs clean given
  obtain ⟨attrs,known⟩ := Option.ne_none_iff_exists'.mp declared
  rw [known,if_neg (Option.some_ne_none _),Option.elim_some] at asked
  rw [if_neg declared] at listed
  have holds := catalogued2.stands relation file present
  have owned : file.books.opened.Owned := holds.2.1
  have begun : ((db.setPool relCatName b1).setPool attrCatName b2).length relation = db.length relation := by
    rw [(elsewhere_setPool _ attrCatName b2).length not_attr,(elsewhere_setPool db relCatName b1).length not_rel]
  obtain ⟨b3,s3,before,n,d,made,split,inserting,length3⟩ := catalogued2.stands.begin_insert present
  have some_attr : schema.described relation ≠ [] := mt catalogued.registered.described_nil.mp declared
  have positive := Narrow.sum_pos narrow.lens some_attr
  obtain ⟨s4,b4,recCnt4,before4,n4,d4,looped,inserting4,appending4,bound⟩ :=
    loadLoop_room ((db.setPool relCatName b1).setPool attrCatName b2)
    relation owned positive narrow.fits turns inserting (Appending.start split) read (by rw [length3,begun]; exact room)
  have held : ((db.setPool relCatName b1).setPool attrCatName b2).Stands
      (Function.update shelf relation (some file)) := by
    rw [← present,Function.update_eq_self]
    exact catalogued2.stands
  obtain ⟨db5,deleted,fills⟩ := (held.writes holds.1 holds.2.1 inserting4).fills (db.length relation) appending4.gains
    (by rw [length_setPool,← begun,← length3]; exact bound)
  refine ⟨if fd.closes then .ok else .unixErr,db5,?_,fills⟩
  rw [UT_Load,if_neg (by tauto)]
  dsimp only
  rw [asked,ok_bind]
  dsimp only
  rw [if_neg (not_not_intro rfl),listed,ok_bind]
  dsimp only
  rw [if_neg (not_not_intro rfl),made,ok_bind]
  dsimp only
  rw [if_neg (not_not_intro rfl),narrow.recLen some_attr,ok_bind,looped,ok_bind]
  dsimp only
  rw [if_neg (not_not_intro rfl),deleted,ok_bind]
  split <;> rfl

end load

section print

theorem printLoop_spec (db : Db) (relation : Name) {s : HeapFileScan} {c : Cursor} (turns : Nat) (owned : k.Owned)
    (scanning : HeapFileScan.Scanning k recCnt b s c) (clear : s.filter = none) (enough : c.remaining.length < turns) :
    ∃ s' b' c', printLoop relation turns (db.setPool relation b) s =
        .ok (.ok,c.remaining.map fun e => .of e.2,s',db.setPool relation b') ∧
          HeapFileScan.Moves k recCnt b s c b' s' c' := by
  induction turns generalizing b s c with
  | zero => exact absurd enough (Nat.not_lt_zero _)
  | succ turns ih =>
    obtain ⟨b1,s1,c1,moves,clear1,found⟩ := HeapFileScan.scanNext_all owned scanning clear
    rw [printLoop]
    rcases found with ⟨eof,nothing,_⟩ | ⟨bytes,found,read,remaining⟩
    · refine ⟨s1,b1,c1,?_,moves⟩
      rw [Db.scanNext_at eof,nothing]
      rfl
    · rw [remaining,List.length_cons] at enough
      obtain ⟨s2,b2,c2,looped,moves2⟩ := ih moves.scanning clear1 (by omega)
      refine ⟨s2,b2,c2,?_,moves.trans moves2⟩
      rw [Db.scanNext_at found,ok_bind]
      dsimp only
      rw [Db.getRecord_at,read,ok_bind]
      dsimp only
      rw [looped,remaining]
      rfl

theorem Catalogued.UT_Print_spec {schema : Schema} (catalogued : Catalogued db shelf schema) (clean : 0 ∉ relation)
    (given : relation ≠ [])
    (declared : schema relation ≠ none) (present : shelf relation = some file) (turns : Nat)
    (enough : (records file.heap).length < turns) :
    ∃ db', UT_Print turns db relation = .ok (.ok,(records file.heap).map fun e => .of e.2,db') ∧
      Catalogued db' shelf schema := by
  obtain ⟨b1,asked,catalogued1⟩ := catalogued.relInfo clean given ⟨[],0⟩
  obtain ⟨b2,listed,catalogued2⟩ := catalogued1.relAttrs clean given
  obtain ⟨attrs,known⟩ := Option.ne_none_iff_exists'.mp declared
  rw [known,if_neg (Option.some_ne_none _),Option.elim_some] at asked
  rw [if_neg declared] at listed
  have stands := catalogued2.stands
  have holds := stands relation file present
  have owned : file.books.opened.Owned := holds.2.1
  obtain ⟨b3,s3,c3,made,scanning,whole,all,clear⟩ := newHeapFileScan_spec holds
  obtain ⟨s4,b4,c4,looped,moves⟩ := printLoop_spec ((db.setPool relCatName b1).setPool attrCatName b2) relation
    turns owned scanning clear
    (by rw [all]; exact enough)
  obtain ⟨s5,b5,b6,ended,deleted,kept6,view6⟩ := end_spec ((db.setPool relCatName b1).setPool attrCatName b2)
    relation holds.2.1 moves.scanning
  have back := stands.restored present moves.scanning (moves.heap.trans whole) kept6 view6
  refine ⟨_,?_,catalogued2.same declared ⟨file,present,back relation file present⟩⟩
  have started : s3.startScan 0 0 (some .integer) none .eq = (.ok,s3) := by rw [HeapFileScan.startScan,← clear]
  rw [UT_Print,if_neg given,asked,ok_bind]
  dsimp only
  rw [if_neg (not_not_intro rfl),listed,ok_bind]
  dsimp only
  rw [if_neg (not_not_intro rfl),made,ok_bind]
  dsimp only
  rw [if_neg (not_not_intro rfl),started]
  dsimp only
  rw [if_neg (not_not_intro rfl),looped,ok_bind]
  dsimp only
  rw [if_neg (not_not_intro rfl),ended,ok_bind]
  dsimp only
  rw [if_neg (not_not_intro rfl),deleted,all]
  rfl

end print

end Minirel
