import Minirel.CatalogGrowth
import Mathlib.Algebra.Order.BigOperators.Group.List

namespace Minirel
open ByteMemory SlotDirectory Page Heap Db

-- Attributes whose values a page can hold together.
structure Narrow (attrs : List AttrDesc) : Prop where
  lens : ∀ d ∈ attrs, 1 ≤ d.attrLen
  fits : (attrs.map AttrDesc.attrLen).sum + slotSize ≤ dataSize

theorem Narrow.sum_pos {attrs : List AttrDesc} (lens : ∀ d ∈ attrs, 1 ≤ d.attrLen) (some_attr : attrs ≠ []) :
    1 ≤ (attrs.map AttrDesc.attrLen).sum := by
  obtain ⟨first,rest,rfl⟩ := List.exists_cons_of_ne_nil some_attr
  have head := lens first (List.mem_cons_self ..)
  have tail : 0 ≤ (rest.map AttrDesc.attrLen).sum := List.sum_nonneg fun len member => by
    obtain ⟨d,inside,rfl⟩ := List.mem_map.mp member
    exact Int.le_of_lt (lens d (List.mem_cons_of_mem _ inside))
  rw [List.map_cons,List.sum_cons]
  omega

theorem Narrow.recLen {attrs : List AttrDesc} (narrow : Narrow attrs) (some_attr : attrs ≠ []) :
    recLen attrs = .ok (attrs.map AttrDesc.attrLen).sum := by
  have size : (dataSize : Int) = 1004 := rfl
  have fits := narrow.fits
  have positive := Narrow.sum_pos narrow.lens some_attr
  rw [Minirel.recLen,if_neg (by omega)]

-- Where the file has room for a page for every record that is to come, and a page has room for each, no
-- insert fails.
section loops

variable {source inner result : Name} {b bt : Pool} {k kt : Pool.Books} {recCnt recCntT : Int} {heap before : Heap}
  {n : Int} {d : Slots}
  {new : List (List UInt8)} {attrs : List AttrDesc}

namespace InsertFileScan

theorem insertRecord_room {s : InsertFileScan} {bytes : List UInt8} (owned : k.Owned) (positive : bytes ≠ [])
    (narrow : bytes.length + slotSize ≤ dataSize) (room : b.file.length < 2 ^ 31)
    (inserting : Inserting k recCnt b s before n d)
    (appending : Appending heap before n d new) :
    ∃ rid s' b' recCnt' before' n' d', insertRecord b s (.of bytes) = .ok (.ok rid,s',b') ∧
      Inserting k recCnt' b' s' before' n' d' ∧
      Appending heap before' n' d' (new ++ [bytes]) ∧ b'.file.length ≤ b.file.length + 1 := by
  have int : bytes.length < 2 ^ 31 := by
    have size : dataSize = 1004 := rfl
    omega
  obtain ⟨result,s',b',recCnt',before',n',d',ran,inserting',told⟩ :=
    insertRecord_appends owned positive int inserting appending
  have longer := inserting.insertRecord_length owned _ _ ran
  rcases told with ⟨rid,rfl,appending'⟩ | ⟨status,_,rfl,_⟩
  · exact ⟨rid,s',b',recCnt',before',n',d',ran,inserting',appending',longer⟩
  · obtain ⟨rid,_,_,taken⟩ := (inserting.takes_iff owned bytes).mpr ⟨narrow,.inr room⟩
    cases taken.symm.trans ran

end InsertFileScan

theorem selectLoop_room (db : Db) {s : HeapFileScan} {rel : InsertFileScan} {c : Cursor} (apart : source ≠ result)
    (turns : Nat) (owned : k.Owned)
    (ownedT : kt.Owned) (some_attr : attrs ≠ []) (narrow : Narrow attrs)
    (scanning : HeapFileScan.Scanning k recCnt b s c) (inside : ∀ e ∈ c.remaining, ∀ d ∈ attrs, Inside d e.2)
    (inserting : InsertFileScan.Inserting kt recCntT bt rel before n d) (appending : Appending heap before n d new) :
    let wanted := (c.remaining.filter fun e => s.matchRec (.of e.2)).map fun e => projection attrs e.2
    wanted.length < turns → bt.file.length + wanted.length ≤ 2 ^ 31 →
    ∃ s' c' rel' b' bt' recCntT' before' n' d', selectLoop source result attrs turns
      ((db.setPool source b).setPool result bt) s rel =
        .ok (.ok,s',rel',(db.setPool source b').setPool result bt') ∧ HeapFileScan.Moves k recCnt b s c b' s' c' ∧
      InsertFileScan.Inserting kt recCntT' bt' rel' before' n' d' ∧ Appending heap before' n' d' (new ++ wanted) ∧
      bt'.file.length ≤ bt.file.length + wanted.length := by
  intro wanted enough room
  subst wanted
  induction turns generalizing b s c bt rel before n d new recCntT with
  | zero => exact absurd enough (Nat.not_lt_zero _)
  | succ turns ih =>
    obtain ⟨b1,s1,c1,moves,finds⟩ := HeapFileScan.scanNext_spec owned scanning
    unfold selectLoop
    rw [Db.setPool_comm _ _ _ apart]
    generalize found : HeapFileScan.scanNext b s = outcome at finds
    cases finds with
    | eof passed done =>
      have nothing := HeapFileScan.filter_passed passed
      refine ⟨s1,c1,rel,b1,bt,recCntT,before,n,d,?_,moves,inserting,?_,Nat.le_add_right ..⟩
      · rw [Db.scanNext_at found,Db.setPool_comm _ _ _ apart]
        rfl
      · rw [nothing,List.map_nil,List.append_nil]
        exact appending
    | record skipped bytes remaining passed accepted current =>
      have next := HeapFileScan.filter_next remaining passed accepted moves.filter
      have member : (s1.curRec,bytes) ∈ c.remaining := by rw [remaining]; simp
      have here := inside _ member
      have later : ∀ e ∈ c1.remaining, ∀ d ∈ attrs, Inside d e.2 := fun e ahead =>
        inside e (by rw [remaining]; simp [ahead])
      have filled : projection attrs bytes ≠ [] := gathered_ne_nil here some_attr
      have size : ((projection attrs bytes).length : Int) = (attrs.map AttrDesc.attrLen).sum := length_gathered here
      have fits := narrow.fits
      rw [next,List.map_cons,List.length_cons] at enough room
      obtain ⟨rid,rel2,bt2,recCnt2,before2,n2,d2,ran,inserting2,appending2,longer⟩ :=
        InsertFileScan.insertRecord_room ownedT filled (by omega) (by omega) inserting appending
      obtain ⟨s3,c3,rel3,b3,bt3,recCnt3,before3,n3,d3,looped,moves3,inserting3,appending3,bound⟩ :=
        ih moves.scanning later inserting2 appending2 (by omega) (by omega)
      refine ⟨s3,c3,rel3,b3,bt3,recCnt3,before3,n3,d3,?_,moves.trans moves3,inserting3,?_,?_⟩
      · rw [Db.scanNext_at found,ok_bind]
        dsimp only
        rw [Db.getRecord_at,HeapFileScan.getRecord_spec moves.scanning current rfl,ok_bind]
        dsimp only
        rw [project_inside here,ok_bind,Db.setPool_comm _ _ _ apart.symm,Db.insertRecord_at ran,ok_bind]
        exact looped
      · rw [next,List.map_cons]
        rwa [List.append_assoc] at appending3
      · rw [next,List.map_cons,List.length_cons]
        omega

theorem innerLoop_room (db : Db) (outerName : Name) (one : List UInt8) {s : HeapFileScan} {rel : InsertFileScan}
    {c : Cursor}
    (apart : inner ≠ result) (turns : Nat) (owned : k.Owned) (ownedT : kt.Owned) (some_attr : attrs ≠ [])
    (narrow : Narrow attrs) (scanning : HeapFileScan.Scanning k recCnt b s c)
    (inside : ∀ e ∈ c.remaining, ∀ d ∈ attrs, Inside d (sourceOf outerName one e.2 d))
    (inserting : InsertFileScan.Inserting kt recCntT bt rel before n d) (appending : Appending heap before n d new) :
    let wanted := (c.remaining.filter fun e => s.matchRec (.of e.2)).map fun e =>
      gathered (sourceOf outerName one e.2) attrs
    wanted.length < turns → bt.file.length + wanted.length ≤ 2 ^ 31 →
    ∃ s' c' rel' b' bt' recCntT' before' n' d',
      innerLoop inner result outerName attrs (.of one) turns ((db.setPool inner b).setPool result bt) s rel =
        .ok (s',rel',(db.setPool inner b').setPool result bt') ∧ HeapFileScan.Moves k recCnt b s c b' s' c' ∧
      InsertFileScan.Inserting kt recCntT' bt' rel' before' n' d' ∧ Appending heap before' n' d' (new ++ wanted) ∧
      bt'.file.length ≤ bt.file.length + wanted.length := by
  intro wanted enough room
  subst wanted
  induction turns generalizing b s c bt rel before n d new recCntT with
  | zero => exact absurd enough (Nat.not_lt_zero _)
  | succ turns ih =>
    obtain ⟨b1,s1,c1,moves,finds⟩ := HeapFileScan.scanNext_spec owned scanning
    unfold innerLoop
    rw [Db.setPool_comm _ _ _ apart]
    generalize found : HeapFileScan.scanNext b s = outcome at finds
    cases finds with
    | eof passed done =>
      have nothing := HeapFileScan.filter_passed passed
      refine ⟨s1,c1,rel,b1,bt,recCntT,before,n,d,?_,moves,inserting,?_,Nat.le_add_right ..⟩
      · rw [Db.scanNext_at found,Db.setPool_comm _ _ _ apart]
        rfl
      · rw [nothing,List.map_nil,List.append_nil]
        exact appending
    | record skipped bytes remaining passed accepted current =>
      have next := HeapFileScan.filter_next remaining passed accepted moves.filter
      have here : ∀ d ∈ attrs, Inside d (sourceOf outerName one bytes d) :=
        inside (s1.curRec,bytes) (by rw [remaining]; simp)
      have later : ∀ e ∈ c1.remaining, ∀ d ∈ attrs, Inside d (sourceOf outerName one e.2 d) :=
        fun e ahead => inside e (by rw [remaining]; simp [ahead])
      have filled := gathered_ne_nil here some_attr
      have size := length_gathered here
      have fits := narrow.fits
      rw [next,List.map_cons,List.length_cons] at enough room
      obtain ⟨rid,rel2,bt2,recCnt2,before2,n2,d2,ran,inserting2,appending2,longer⟩ :=
        InsertFileScan.insertRecord_room ownedT filled (by omega) (by omega) inserting appending
      obtain ⟨s3,c3,rel3,b3,bt3,recCnt3,before3,n3,d3,looped,moves3,inserting3,appending3,bound⟩ :=
        ih moves.scanning later inserting2 appending2 (by omega) (by omega)
      refine ⟨s3,c3,rel3,b3,bt3,recCnt3,before3,n3,d3,?_,moves.trans moves3,inserting3,?_,?_⟩
      · rw [Db.scanNext_at found,ok_bind]
        dsimp only
        rw [Db.getRecord_at,HeapFileScan.getRecord_spec moves.scanning current rfl,ok_bind]
        dsimp only
        rw [joinRecord_inside here,ok_bind,Db.setPool_comm _ _ _ apart.symm,Db.insertRecord_at ran,ok_bind]
        exact looped
      · rw [next,List.map_cons]
        rwa [List.append_assoc] at appending3
      · rw [next,List.map_cons,List.length_cons]
        omega

end loops

section files

variable {db db' : Db} {shelf : Shelf} {base : Db} {name other source inner outer result : Name}
  {file file1 file2 target : HeldFile} {b : Pool} {new : List (List UInt8)}
  {attrs : List AttrDesc}

-- A file has gained these records, over at most a page for each, and is as open as it was.
def Fills (shelf : Shelf) (name : Name) (file : HeldFile) (new : List (List UInt8)) (length : Nat) (db' : Db) : Prop :=
  ∃ file', db'.Stands (Function.update shelf name (some file')) ∧ file'.books = file.books ∧
    Gains file.heap file'.heap new ∧
    db'.length name ≤ length + new.length

theorem Db.Stands.begin_insert (stands : db.Stands shelf) (present : shelf name = some file) :
    ∃ b s before n d, db.newInsertFileScan name = .ok (.ok,s,db.setPool name b) ∧ file.heap = before ++ [(n,d)] ∧
      InsertFileScan.Inserting file.books.opened file.recCnt b s before n d ∧ b.file.length = db.length name := by
  obtain ⟨old,found,kept,_⟩ := (stands name file present).2.2
  obtain ⟨b,s,before,n,d,made,split,inserting,view⟩ := newInsertFileScan_view (stands name file present) found
  refine ⟨b,s,before,n,d,made,split,inserting,?_⟩
  rw [kept.length_of_view inserting.kept view,Db.length,found]
  rfl

-- The destructor of an object that has inserted.
theorem Db.Writes.fills {s : InsertFileScan} {before : Heap} {n : Int} {d : Slots} {recCnt : Int} (length : Nat)
    (writes : db.Writes shelf name file s before n d recCnt) (gains : Gains file.heap (before ++ [(n,d)]) new)
    (bound : db.length name ≤ length + new.length) :
    ∃ db', db.deleteInsertFileScan name s = .ok db' ∧ Fills shelf name file new length db' := by
  obtain ⟨b,back,inserting⟩ := writes.stands.resume_insert (Function.update_self ..) writes.there
  obtain ⟨b',deleted,kept,view⟩ := db.deleteInsert_spec name writes.owned inserting
  have held := writes.stands.put ⟨file.books,before ++ [(n,d)],recCnt⟩
    (holds_setPool writes.named writes.owned kept (by rw [view]; exact inserting.stored))
  rw [Function.update_idem] at held
  refine ⟨db.setPool name b',by rw [back,deleted,setPool_setPool],_,held,rfl,gains,?_⟩
  rw [back,length_setPool] at bound
  rw [length_setPool,inserting.kept.length_of_view kept view]
  exact bound

theorem startSelect_sound (atof : List UInt8 → List UInt8) (s : HeapFileScan) (clear : s.filter = none)
    (attrDesc : Option AttrDesc)
    (op : Operator) (filter : List UInt8) (sound : ∀ c, selectCondition atof attrDesc op filter = some c → c.Sound) :
    startSelect atof s attrDesc op filter = (.ok,{s with filter := selectCondition atof attrDesc op filter}) := by
  rcases startSelect_spec atof s clear attrDesc op filter with started | refused
  · exact started
  · unfold startSelect selectCondition at *
    cases attrDesc with
    | none => cases refused
    | some d =>
      dsimp only at *
      rw [Option.bind_some] at *
      cases code : Datatype.ofCode d.attrType with
      | none =>
        rw [code] at refused
        cases refused
      | some type =>
        rw [code] at refused sound
        exact s.startScan_sound (sound _ rfl)

theorem ScanSelect_room (atof : List UInt8 → List UInt8) (stands : db.Stands shelf) (apart : source ≠ result)
    (present : shelf source = some file)
    (there : shelf result = some target) (some_attr : attrs ≠ []) (from_source : ∀ d ∈ attrs, d.relName = source)
    (narrow : Narrow attrs) (inside : ∀ e ∈ records file.heap, ∀ d ∈ attrs, Inside d e.2)
    (attrDesc : Option AttrDesc) (op : Operator) (filter : List UInt8)
    (sound : ∀ c, selectCondition atof attrDesc op filter = some c → c.Sound)
    (turns : Nat) (enough : (records file.heap).length < turns)
    (room : db.length result + (selected file.heap (selectCondition atof attrDesc op filter) attrs).length ≤ 2 ^ 31) :
    ∃ db', ScanSelect atof turns db result attrs attrDesc op filter = .ok (.ok,db') ∧
      Fills shelf result target (selected file.heap (selectCondition atof attrDesc op filter) attrs)
        (db.length result) db' := by
  obtain ⟨first,rest,split⟩ := List.exists_cons_of_ne_nil some_attr
  have head : attrs.head? = some first := by rw [split]; rfl
  obtain rfl : first.relName = source := from_source first (by rw [split]; exact List.mem_cons_self ..)
  have holds := stands first.relName file present
  have holdsT := stands result target there
  have ownedS : file.books.opened.Owned := holds.2.1
  have ownedT : target.books.opened.Owned := holdsT.2.1
  obtain ⟨b1,s1,c1,opened,made,whole,all,clear,scanning,stands1,_,_⟩ := stands.open_scan present
  have there1 : (Function.update shelf first.relName (some opened) : Shelf) result = some target := by
    rw [Function.update_of_ne apart.symm]
    exact there
  obtain ⟨bt1,rel1,before,n,d,madeT,splitT,inserting,begun_length⟩ := stands1.begin_insert there1
  rw [(elsewhere_setPool db first.relName b1).length apart.symm] at begun_length
  have wanted : (c1.remaining.filter fun e => HeapFileScan.matchRec
    {s1 with filter := selectCondition atof attrDesc op filter} (.of e.2)).map
      (fun e => projection attrs e.2) = selected file.heap (selectCondition atof attrDesc op filter) attrs := by
    rw [all,selected]
    exact congrArg _ (List.filter_congr fun e _ => HeapFileScan.matchRec_accepts rfl e.2)
  have few : (selected file.heap (selectCondition atof attrDesc op filter) attrs).length ≤
      (records file.heap).length := by
    rw [selected,List.length_map]
    exact List.length_filter_le _ _
  obtain ⟨s3,c3,rel3,b3,bt3,recCnt3,before3,n3,d3,looped,moves,inserting3,appending,bound⟩ :=
    selectLoop_room db apart turns ownedS ownedT some_attr
    narrow (scanning.filtered _) (by rw [all]; exact inside) inserting (Appending.start splitT) (by rw [wanted]; omega)
    (by rw [wanted,begun_length]; exact room)
  rw [wanted] at appending bound
  rw [begun_length] at bound
  obtain ⟨s4,b4,b5,ended,deleted,kept5,view5⟩ := (db.setPool result bt3).end_spec first.relName holds.2.1 moves.scanning
  have stands5 := stands.restored present moves.scanning (moves.heap.trans whole) kept5 view5
  have held : (db.setPool first.relName b5).Stands (Function.update shelf result (some target)) := by
    rwa [← there,Function.update_eq_self]
  obtain ⟨db6,closed,fills⟩ := (held.writes holdsT.1 holdsT.2.1 inserting3).fills _ appending.gains
    (by rw [length_setPool]; exact bound)
  refine ⟨db6,?_,fills⟩
  rw [ScanSelect,head]
  dsimp only
  rw [made,ok_bind]
  dsimp only
  rw [if_neg (not_not_intro rfl),madeT,ok_bind]
  dsimp only
  rw [if_neg (not_not_intro rfl),startSelect_sound atof s1 clear attrDesc op filter sound]
  dsimp only
  rw [if_neg (not_not_intro rfl),looped,ok_bind]
  dsimp only
  rw [Db.setPool_comm _ _ _ apart,ended,ok_bind]
  dsimp only
  rw [deleted,ok_bind,Db.setPool_comm _ _ _ apart.symm,closed]
  rfl

section select

variable {cat : HeldFile} {infos : List AttrInfo} {attr : Option AttrInfo} {attrDesc : Option AttrDesc}

theorem QU_Select_room (query : SelectQuery db shelf cat file target source result infos attrs attr attrDesc)
    (apart : source ≠ result)
    (atof : List UInt8 → List UInt8) (op : Operator) (attrValue : List UInt8) (narrow : Narrow attrs)
    (sound : ∀ c, selectCondition atof attrDesc op attrValue = some c → c.Sound) (turns : Nat)
    (enough : (records file.heap).length < turns)
    (room : db.length result + (selected file.heap (selectCondition atof attrDesc op attrValue) attrs).length ≤
      2 ^ 31) :
    ∃ db', QU_Select atof turns db result infos attr op attrValue = .ok (.ok,db') ∧
      Fills shelf result target (selected file.heap (selectCondition atof attrDesc op attrValue) attrs)
        (db.length result) db' := by
  have listed := Found.listed query.found
  have query_some := query.some_desc
  have on : shelf result ≠ none := by
    rw [query.at_result]
    exact Option.some_ne_none _
  -- The scan starts in a directory that has only been asked.
  have scan : ∀ db1 : Db, db1.Stands shelf → db1.length result = db.length result → ∃ db',
      ScanSelect atof turns db1 result attrs attrDesc op attrValue = .ok (.ok,db') ∧
        Fills shelf result target (selected file.heap (selectCondition atof attrDesc op attrValue) attrs)
          (db.length result) db' := by
    intro db1 stands1 same
    rw [← same] at room ⊢
    exact ScanSelect_room atof stands1 apart query.at_source query.at_result query.some_desc
      (fun d member => attributes_relName (listed d member)) narrow
      (fun e member d one => query.laid e member d (listed d one))
      attrDesc op attrValue sound turns enough room
  obtain ⟨stands,catalog,wide,clean,at_source,_,_,_,found,chosen⟩ := query
  have named := (stands source file at_source).1
  obtain ⟨db1,looked,stands1⟩ := projDescs_spec stands catalog wide
    (found.imp fun _ _ here => ⟨source,named,clean,here⟩)
  have stays1 : db1.Stays shelf db := projDescs_stays stands.shelved.stays infos _ looked
  rw [QU_Select,looked,ok_bind]
  dsimp only
  rw [if_neg (not_not_intro rfl)]
  cases chosen with
  | none =>
    dsimp only
    rw [narrow.recLen query_some,ok_bind]
    exact scan db1 stands1 (stays1.length on)
  | some here =>
    obtain ⟨db2,asked,stands2⟩ := AttrCatalog.getInfo_found stands1 catalog wide clean named here.attrName here.attr
      ⟨[],[],0,0,0⟩
    have stays2 : db2.Stays shelf db := AttrCatalog.getInfo_stays stays1 _ _ _ _ asked
    dsimp only
    rw [here.relName,asked,ok_bind]
    dsimp only
    rw [if_neg (not_not_intro rfl),narrow.recLen query_some,ok_bind]
    exact scan db2 stands2 (stays2.length on)

end select

-- What startScan accepts for an attribute of its type.
structure Scannable (d : AttrDesc) (type : Datatype) : Prop where
  code : Datatype.ofCode d.attrType = some type
  offset : 0 ≤ d.attrOffset
  len : 1 ≤ d.attrLen
  four : type ≠ .string → d.attrLen = 4

theorem Scannable.sound {d : AttrDesc} {type : Datatype} (scannable : Scannable d type) (filter : List UInt8)
    (op : Operator) :
    (⟨d.attrOffset,d.attrLen,type,filter,op⟩ : Condition).Sound := by
  have offset := scannable.offset
  have len := scannable.len
  have four := scannable.four
  rw [Condition.Sound]
  cases type <;> simp at four ⊢ <;> omega

section join

variable {cat : HeldFile} {d1 d2 : AttrDesc} {type : Datatype} {n : Int} {d : Slots} {before heap : Heap}
  {recCntT : Int}

theorem startJoin_sound (s : HeapFileScan) (scannable : Scannable d2 type) (op : Operator) (one : List UInt8) :
    s.startScan d2.attrOffset d2.attrLen (Datatype.ofCode d2.attrType) (some (one.drop d1.attrOffset.toNat)) op.mirror =
      (.ok,{s with filter := joinCondition d1 d2 op one}) := by
  rw [joinCondition,scannable.code]
  exact s.startScan_sound (scannable.sound _ _)

theorem joinOuter_room {rel : InsertFileScan} {one : List UInt8} (op : Operator) (apart : inner ≠ result) (turns : Nat)
    (some_attr : attrs ≠ []) (narrow : Narrow attrs) (scannable : Scannable d2 type)
    (present : shelf inner = some file2)
    (inside : ∀ e ∈ records file2.heap, ∀ d ∈ attrs, Inside d (sourceOf outer one e.2 d))
    (pointer : 0 ≤ d1.attrOffset ∧ d1.attrOffset + d2.attrLen ≤ one.length)
    (writes : db.Writes shelf result target rel before n d recCntT) (appending : Appending heap before n d new)
    (enough : (records file2.heap).length < turns)
    (room : db.length result + (joinedWith outer attrs d1 d2 op file2.heap one).length ≤ 2 ^ 31) :
    ∃ rel' db' recCntT' before' n' d', joinOuter outer inner result attrs d1 d2 op turns db (.of one) rel =
      .ok (.ok,rel',db') ∧
      db'.Writes shelf result target rel' before' n' d' recCntT' ∧
      Appending heap before' n' d' (new ++ joinedWith outer attrs d1 d2 op file2.heap one) ∧
      db'.length result ≤ db.length result + (joinedWith outer attrs d1 d2 op file2.heap one).length := by
  have there : (Function.update shelf result (some (Db.written target rel before n d recCntT)) : Shelf) inner =
      some file2 := by
    rw [Function.update_of_ne apart]
    exact present
  obtain ⟨db1,s1,c1,made,scans,whole,all,clear⟩ := writes.stands.start_scan there
  obtain ⟨b,back,scanning⟩ := scans.resume
  have ownedS : file2.books.opened.Owned := scans.owned
  have ownedT : target.books.opened.Owned := writes.owned
  obtain ⟨bt,at_result,inserting⟩ := scans.stands.resume_insert
    (by rw [Function.update_of_ne apart.symm,Function.update_self]) writes.there
  have length1 : db1.length result = db.length result :=
    (newHeapFileScan_only db inner _ made).elsewhere.length apart.symm
  have length_bt : bt.file.length = db.length result := by
    rw [← length1,at_result,length_setPool]
  have same : (c1.remaining.filter fun e => HeapFileScan.matchRec {s1 with filter := joinCondition d1 d2 op one}
    (.of e.2)).map
      (fun e => gathered (sourceOf outer one e.2) attrs) = joinedWith outer attrs d1 d2 op file2.heap one := by
    rw [all]
    exact congrArg _ (List.filter_congr fun e _ => HeapFileScan.matchRec_accepts rfl e.2)
  have few : (joinedWith outer attrs d1 d2 op file2.heap one).length ≤ (records file2.heap).length := by
    rw [joinedWith,List.length_map]
    exact List.length_filter_le _ _
  have placed : db1 = (db1.setPool inner b).setPool result bt := by rw [← back,← at_result]
  obtain ⟨s2,c2,rel2,b2,bt2,recCnt2,before2,n2,d2',looped,moves,inserting2,appending2,bound⟩ :=
    innerLoop_room db1 outer one apart turns ownedS
    ownedT some_attr narrow (scanning.filtered (joinCondition d1 d2 op one)) (by rw [all]; exact inside)
      inserting appending
    (by rw [same]; omega) (by rw [same,length_bt]; exact room)
  rw [← placed] at looped
  rw [same] at appending2 bound
  have both := scans.both apart moves.scanning writes.named writes.owned inserting2
  obtain ⟨db3,deleted,stands3⟩ := both.delete (by rw [Function.update_of_ne apart]; exact present)
    (moves.heap.trans whole)
  have length3 := (deleteHeapFileScan_only _ _ _ _ deleted).elsewhere.length apart.symm
  refine ⟨rel2,db3,recCnt2,before2,n2,d2',?_,⟨stands3,⟨bt2,inserting2⟩,writes.named,writes.owned⟩,appending2,?_⟩
  · have inside_pointer : ¬ (d1.attrOffset < 0 ∨ (Record.of one).length < d1.attrOffset + d2.attrLen) := by
      rw [Record.of]
      dsimp only
      omega
    rw [joinOuter,made,ok_bind]
    dsimp only
    rw [if_neg (not_not_intro rfl),if_neg inside_pointer,Record.of]
    dsimp only
    rw [startJoin_sound s1 scannable]
    dsimp only
    rw [if_neg (not_not_intro rfl)]
    rw [Record.of] at looped
    rw [looped,ok_bind]
    dsimp only
    rw [deleted]
    rfl
  · rw [length3,length_setPool,← length_bt]
    exact bound

theorem outerLoop_room {s : HeapFileScan} {rel : InsertFileScan} {c : Cursor} (op : Operator) (apart1 : outer ≠ result)
    (apart2 : inner ≠ result) (innerTurns turns : Nat) (some_attr : attrs ≠ []) (narrow : Narrow attrs)
    (scannable : Scannable d2 type)
    (at_outer : shelf outer = some file1) (at_inner : shelf inner = some file2) (named : result ≠ [])
    (ownedT : target.books.Owned)
    (inside : ∀ e1 ∈ c.remaining, ∀ e2 ∈ records file2.heap, ∀ d ∈ attrs, Inside d (sourceOf outer e1.2 e2.2 d))
    (pointer : ∀ e1 ∈ c.remaining, 0 ≤ d1.attrOffset ∧ d1.attrOffset + d2.attrLen ≤ e1.2.length)
    (scans : db.Scans (Function.update shelf result (some (Db.written target rel before n d recCntT))) outer file1 s c)
    (whole : c.heap = file1.heap) (clear : s.filter = none)
    (there : ∃ bt, InsertFileScan.Inserting target.books.opened recCntT bt rel before n d)
    (appending : Appending heap before n d new)
    (enough1 : c.remaining.length < turns) (enough2 : (records file2.heap).length < innerTurns)
    (room : db.length result + (joined outer attrs d1 d2 op c.remaining file2.heap).length ≤ 2 ^ 31) :
    ∃ s' c' rel' db' recCntT' before' n' d', outerLoop outer inner result attrs d1 d2 op innerTurns turns db s rel =
      .ok (.ok,s',rel',db') ∧
      db'.Scans (Function.update shelf result (some (Db.written target rel' before' n' d' recCntT'))) outer
        file1 s' c' ∧
      c'.heap = file1.heap ∧ (∃ bt, InsertFileScan.Inserting target.books.opened recCntT' bt rel' before' n' d') ∧
      Appending heap before' n' d' (new ++ joined outer attrs d1 d2 op c.remaining file2.heap) ∧
      db'.length result ≤ db.length result + (joined outer attrs d1 d2 op c.remaining file2.heap).length := by
  induction turns generalizing db s c rel before n d new recCntT with
  | zero => exact absurd enough1 (Nat.not_lt_zero _)
  | succ turns ih =>
    obtain ⟨b,back,scanning⟩ := scans.resume
    have owned : file1.books.opened.Owned := scans.owned
    obtain ⟨b1,s1,c1,moves,clear1,found⟩ := HeapFileScan.scanNext_all owned scanning clear
    have whole1 : (Db.scanned file1 s1 c1).heap = file1.heap := moves.heap.trans whole
    have scans1 := scans.stands.scans scans.named scans.owned moves.scanning
    have length1 : (db.setPool outer b1).length result = db.length result :=
      (elsewhere_setPool db outer b1).length apart1.symm
    rcases found with ⟨eof,nothing,_⟩ | ⟨bytes,found,read,remaining⟩
    · refine ⟨s1,c1,rel,db.setPool outer b1,recCntT,before,n,d,?_,scans1,whole1,there,?_,?_⟩
      · rw [outerLoop,back,Db.scanNext_at eof,Db.setPool_setPool]
        rfl
      · rw [nothing,joined,List.flatMap_nil,List.append_nil]
        exact appending
      · rw [length1]
        exact Nat.le_add_right ..
    · have here : (s1.curRec,bytes) ∈ c.remaining := by rw [remaining]; exact List.mem_cons_self ..
      have later : ∀ e ∈ c1.remaining, e ∈ c.remaining := fun e ahead => by
        rw [remaining]; exact List.mem_cons_of_mem _ ahead
      obtain ⟨file2',at_inner',same⟩ := Db.find_opened at_inner at_outer whole1
      have stands1 := scans1.stands
      rw [Function.update_comm apart1.symm] at stands1
      have begun := outerLoop_record db outer inner result attrs d1 d2 op innerTurns turns rel found read
      rw [← back] at begun
      have next : joined outer attrs d1 d2 op c.remaining file2.heap =
          joinedWith outer attrs d1 d2 op file2.heap bytes ++ joined outer attrs d1 d2 op c1.remaining file2.heap := by
        rw [remaining]
        rfl
      have reads : 0 ≤ d1.attrOffset ∧ d1.attrOffset + d2.attrLen ≤ bytes.length := pointer _ here
      rw [next,List.length_append] at room
      rw [remaining,List.length_cons] at enough1
      obtain ⟨rel2,db2,recCnt2,before2,n2,d2',ran,writes,appending2,bound⟩ :=
        joinOuter_room op apart2 innerTurns some_attr narrow scannable at_inner'
        (by rw [same]; exact inside _ here) reads ⟨stands1,there,named,ownedT⟩ appending (by rw [same]; exact enough2)
        (by rw [same,length1]; omega)
      rw [same,length1] at bound
      rw [same] at appending2
      have stands2 := writes.stands
      rw [Function.update_comm apart1] at stands2
      obtain ⟨s3,c3,rel3,db3,recCnt3,before3,n3,d3,looped,scans3,whole3,there3,appending3,bound3⟩ :=
        ih (fun e1 ahead => inside e1 (later e1 ahead)) (fun e1 ahead => pointer e1 (later e1 ahead))
          ⟨stands2,⟨b1,moves.scanning⟩,scans.named,scans.owned⟩ whole1 clear1 writes.there appending2 (by omega)
            (by omega)
      rw [next,List.length_append]
      rw [List.append_assoc] at appending3
      refine ⟨s3,c3,rel3,db3,recCnt3,before3,n3,d3,?_,scans3,whole3,there3,appending3,by omega⟩
      rw [begun,ran,ok_bind]
      dsimp only
      rw [if_neg (not_not_intro rfl)]
      exact looped

theorem joinScan_room (stands : db.Stands shelf) (name1 : d1.relName = outer) (name2 : d2.relName = inner)
    (apart1 : outer ≠ result)
    (apart2 : inner ≠ result) (at_outer : shelf outer = some file1) (at_inner : shelf inner = some file2)
    (at_result : shelf result = some target) (some_attr : attrs ≠ []) (narrow : Narrow attrs)
    (scannable : Scannable d2 type)
    (inside : ∀ e1 ∈ records file1.heap, ∀ e2 ∈ records file2.heap, ∀ d ∈ attrs, Inside d (sourceOf outer e1.2 e2.2 d))
    (pointer : ∀ e1 ∈ records file1.heap, 0 ≤ d1.attrOffset ∧ d1.attrOffset + d2.attrLen ≤ e1.2.length)
    (op : Operator) (turns : Nat)
    (enough1 : (records file1.heap).length < turns) (enough2 : (records file2.heap).length < turns)
    (room : db.length result + (joined outer attrs d1 d2 op (records file1.heap) file2.heap).length ≤ 2 ^ 31) :
    ∃ db', joinScan turns db result attrs d1 d2 op = .ok (.ok,db') ∧
      Fills shelf result target (joined outer attrs d1 d2 op (records file1.heap) file2.heap)
        (db.length result) db' := by
  obtain ⟨named,ownedT,_⟩ := stands result target at_result
  obtain ⟨b,rel,before,n,d,made,split,inserting,length_b⟩ := stands.begin_insert at_result
  have held : db.Stands (Function.update shelf result (some target)) := by rwa [← at_result,Function.update_eq_self]
  have writes := held.writes named ownedT inserting
  have at_outer' : (Function.update shelf result (some (Db.written target rel before n d target.recCnt)) : Shelf)
      outer = some file1 := by
    rw [Function.update_of_ne apart1]
    exact at_outer
  obtain ⟨db2,s,c,opened,scans,whole,all,clear⟩ := writes.stands.start_scan at_outer'
  have started : s.startScan 0 0 (some .string) none .eq = (.ok,s) := by rw [HeapFileScan.startScan,← clear]
  have length2 : db2.length result = db.length result := by
    rw [(newHeapFileScan_only _ outer _ opened).elsewhere.length apart1.symm,length_setPool]
    exact length_b
  obtain ⟨s1,c1,rel1,db3,recCnt1,before1,n1,slots1,looped,scans1,whole1,there1,appending,bound⟩ :=
    outerLoop_room op apart1 apart2 turns turns some_attr narrow scannable at_outer at_inner named ownedT
      (by rw [all]; exact inside)
      (by rw [all]; exact pointer) scans whole clear writes.there (Appending.start split)
      (by rw [all]; exact enough1) enough2
      (by rw [all,length2]; exact room)
  rw [all] at appending bound
  have at_outer1 : (Function.update shelf result (some (Db.written target rel1 before1 n1 slots1 recCnt1)) : Shelf)
      outer = some file1 := by
    rw [Function.update_of_ne apart1]
    exact at_outer
  obtain ⟨db4,deleted,stands4⟩ := scans1.delete at_outer1 whole1
  rw [List.nil_append] at appending
  rw [← (deleteHeapFileScan_only _ _ _ _ deleted).elsewhere.length apart1.symm,length2] at bound
  obtain ⟨db5,closed,fills⟩ := Db.Writes.fills _ ⟨stands4,there1,named,ownedT⟩ appending.gains bound
  refine ⟨db5,?_,fills⟩
  rw [joinScan,made,ok_bind]
  dsimp only
  rw [if_neg (not_not_intro rfl),name1,name2,opened,ok_bind]
  dsimp only
  rw [if_neg (not_not_intro rfl),started]
  dsimp only
  rw [looped,ok_bind]
  dsimp only
  rw [deleted,ok_bind,closed]
  rfl

theorem QU_NL_Join_room {infos : List AttrInfo} {attr1 attr2 : AttrInfo}
    (query : JoinQuery db shelf cat file1 file2 target outer inner result infos attrs attr1 attr2 d1 d2)
    (apart1 : outer ≠ result)
    (apart2 : inner ≠ result) (types : attr1.attrType = attr2.attrType) (lens : attr1.attrLen = attr2.attrLen)
    (narrow : Narrow attrs)
    (scannable : Scannable d2 type) (op : Operator) (turns : Nat) (enough1 : (records file1.heap).length < turns)
    (enough2 : (records file2.heap).length < turns)
    (room : db.length result + (joined outer attrs d1 d2 op (records file1.heap) file2.heap).length ≤ 2 ^ 31) :
    ∃ db', QU_NL_Join turns db result infos attr1 op attr2 = .ok (.ok,db') ∧
      Fills shelf result target (joined outer attrs d1 d2 op (records file1.heap) file2.heap)
        (db.length result) db' := by
  have named1 := (query.stands outer file1 query.at_one).1
  have named2 := (query.stands inner file2 query.at_two).1
  have on : shelf result ≠ none := by
    rw [query.at_result]
    exact Option.some_ne_none _
  obtain ⟨db1,looked,stands1⟩ := projDescs_spec query.stands query.catalog query.wide (query.found.imp fun _ _ here =>
    here.elim (fun first => ⟨outer,named1,query.clean1,first⟩) (fun second => ⟨inner,named2,query.clean2,second⟩))
  have stays1 : db1.Stays shelf db := projDescs_stays query.stands.shelved.stays infos _ looked
  obtain ⟨db2,asked1,stands2⟩ := AttrCatalog.getInfo_found stands1 query.catalog query.wide query.clean1
    named1 query.found1.attrName
    query.found1.attr ⟨[],[],0,0,0⟩
  have stays2 : db2.Stays shelf db := AttrCatalog.getInfo_stays stays1 _ _ _ _ asked1
  obtain ⟨db3,asked2,stands3⟩ := AttrCatalog.getInfo_found stands2 query.catalog query.wide query.clean2
    named2 query.found2.attrName
    query.found2.attr ⟨[],[],0,0,0⟩
  have stays3 : db3.Stays shelf db := AttrCatalog.getInfo_stays stays2 _ _ _ _ asked2
  have length3 := stays3.length on
  rw [← length3] at room ⊢
  obtain ⟨db',ran,fills⟩ := joinScan_room stands3 (attributes_relName (attrOf_mem query.found1.attr).1)
    (attributes_relName (attrOf_mem query.found2.attr).1) apart1 apart2 query.at_one query.at_two query.at_result
    query.some_desc
    narrow scannable query.inside query.pointer op turns enough1 enough2 room
  refine ⟨db',?_,fills⟩
  rw [QU_NL_Join,if_neg (not_or.mpr ⟨not_not_intro types,not_not_intro lens⟩),looked,ok_bind]
  dsimp only
  rw [if_neg (not_not_intro rfl),query.found1.relName,asked1,ok_bind]
  dsimp only
  rw [if_neg (not_not_intro rfl),query.found2.relName,asked2,ok_bind]
  dsimp only
  rw [if_neg (not_not_intro rfl),narrow.recLen query.some_desc,ok_bind]
  exact ran

end join

end files

end Minirel
