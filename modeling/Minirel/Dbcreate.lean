import Minirel.Destroy

namespace Minirel
open ByteMemory SlotDirectory Page Heap

variable {db : Db} {name catalog other : Name} {k : Pool.Books} {heap before : Heap} {recCnt n : Int}
  {d : Slots} {row : List UInt8}

-- A record takes its bytes and at most one more slot.
theorem spaceLeft_put (d : Slots) (bytes : List UInt8) :
    spaceLeft d - slotSize - bytes.length ≤ spaceLeft (put d bytes) := by
  obtain ⟨low,high,old,new,_⟩ := entries_put d bytes
  have used : dataUsed (put d bytes) = dataUsed d + bytes.length := by
    rw [dataUsed,dataUsed,old,new]
    simp [size]
    omega
  have slots : (put d bytes).length ≤ d.length + 1 := by
    rw [length_put]
    split <;> omega
  rw [spaceLeft,spaceLeft,used,slotSize_eq]
  omega

namespace Db

-- An object that only keeps the file open.
theorem newHeapFile_spec (holds : db.Holds name k ((n,d)::heap) recCnt) :
    ∃ b, db.newHeapFile name = .ok (.ok,HeapFile.fresh k.first n,db.setPool name b) ∧
      (db.setPool name b).Holds name ((k.opened.hold k.first false).hold n false) ((n,d)::heap) recCnt := by
  obtain ⟨named,owned,b,found,kept,stored⟩ := holds
  obtain ⟨b1,opened,kept1,view1⟩ := kept.openFile
  obtain ⟨m,e,rest,b2,same,constructed,kept2,view2⟩ :=
    HeapFile.construct_spec kept1 (by rw [view1]; exact stored) db.raw.toHeapFile
  cases same
  have owned' : k.opened.Owned := owned
  refine ⟨b2,?_,holds_setPool named ((owned'.hold _ _).hold _ _) kept2 (by rw [view2,view1]; exact stored)⟩
  rw [newHeapFile,openFile_found named found,opened]
  simp only [pool_setPool,setPool_raw,ok_bind,constructed,setPool_setPool]
  rfl

theorem deleteHeapFile_spec (owned : k.Owned)
    (holds : db.Holds name ((k.opened.hold k.first false).hold n false) heap recCnt) :
    ∃ b, db.deleteHeapFile name (HeapFile.fresh k.first n) = .ok (db.setPool name b) ∧
      (db.setPool name b).Holds name k heap recCnt := by
  obtain ⟨named,_,b,found,kept,stored⟩ := holds
  obtain ⟨kept1,view1⟩ := HeapFile.destroy_pinned (h:=HeapFile.fresh k.first n) owned rfl rfl rfl kept
  refine ⟨_,?_,holds_setPool named owned kept1 (by rw [view1]; exact stored)⟩
  rw [deleteHeapFile,pool_found found,ok_bind]
  rfl

end Db

-- A row for which the last page has room.
theorem addRow_room (holds : db.Holds catalog k (before ++ [(n,d)]) recCnt) (some_bytes : row ≠ [])
    (room : row.length + slotSize ≤ spaceLeft d) :
    ∃ b recCnt', addRow db catalog row = .ok (.ok,db.setPool catalog b) ∧
      (db.setPool catalog b).Holds catalog k (before ++ [(n,put d row)]) recCnt' := by
  have owned : k.opened.Owned := holds.2.1
  obtain ⟨b1,s1,before1,n1,d1,made,split,inserting⟩ := Db.newInsertFileScan_spec holds
  obtain ⟨rfl,same⟩ := List.append_inj' split rfl
  cases same
  obtain ⟨b2,ran,standing⟩ := inserting.standing.insert_room some_bytes room
  have inserting2 := standing.inserting
  obtain ⟨b3,deleted,kept,view⟩ := db.deleteInsert_spec catalog holds.2.1 inserting2
  refine ⟨b3,_,?_,Db.holds_setPool holds.1 holds.2.1 kept (by rw [view]; exact inserting2.stored)⟩
  rw [addRow,made,ok_bind]
  dsimp only
  rw [if_neg (not_not_intro rfl),Db.insertRecord_at ran,ok_bind]
  dsimp only
  rw [deleted]
  rfl

def bytesTaken (rows : List (List UInt8)) : Nat := (rows.map fun row => slotSize + row.length).sum

-- A catalog of one page, with the rows in the order in which they came.
def Begun (db : Db) (catalog : Name) (k : Pool.Books) (n : Int) (rows : List (List UInt8)) : Prop :=
  ∃ d recCnt, db.Holds catalog k [(n,d)] recCnt ∧ Appending [(n,[])] [] n d rows ∧
    dataSize - bytesTaken rows ≤ spaceLeft d

namespace Begun

variable {rows : List (List UInt8)}

theorem beside (begun : Begun db catalog k n rows) (b : Pool) (apart : catalog ≠ other) :
    Begun (db.setPool other b) catalog k n rows := by
  obtain ⟨d,recCnt,holds,appending,space⟩ := begun
  exact ⟨d,recCnt,holds.setPool_other b apart,appending,space⟩

theorem addRow (begun : Begun db catalog k n rows) (some_bytes : row ≠ [])
    (room : bytesTaken (rows ++ [row]) ≤ dataSize) :
    ∃ b, Minirel.addRow db catalog row = .ok (.ok,db.setPool catalog b) ∧
      Begun (db.setPool catalog b) catalog k n (rows ++ [row]) := by
  obtain ⟨d,recCnt,holds,appending,space⟩ := begun
  obtain ⟨_,_,_,_,_,stored⟩ := id holds
  have taken : bytesTaken (rows ++ [row]) = bytesTaken rows + (slotSize + row.length) := by simp [bytesTaken]
  rw [taken] at room
  obtain ⟨b,recCnt',added,holds'⟩ := @addRow_room _ _ _ [] _ _ _ _ holds some_bytes (by omega)
  refine ⟨b,added,put d row,recCnt',holds',appending.put stored.nodup row,?_⟩
  have left := spaceLeft_put d row
  rw [taken]
  omega

theorem addAll {attrs : List AttrDesc} (begun : Begun db attrCatName k n rows)
    (room : bytesTaken (rows ++ attrs.map AttrDesc.bytes) ≤ dataSize) :
    ∃ b, Minirel.addAll db attrs = .ok (db.setPool attrCatName b) ∧
      Begun (db.setPool attrCatName b) attrCatName k n (rows ++ attrs.map AttrDesc.bytes) := by
  induction attrs generalizing db rows with
  | nil =>
    obtain ⟨_,_,⟨_,_,b,found,_⟩,_⟩ := id begun
    refine ⟨b,?_,?_⟩
    · rw [Db.setPool_self found]
      rfl
    · rw [Db.setPool_self found,List.map_nil,List.append_nil]
      exact begun
  | cons attr rest ih =>
    have split : rows ++ (attr::rest).map AttrDesc.bytes = rows ++ [attr.bytes] ++ rest.map AttrDesc.bytes := by simp
    rw [split] at room ⊢
    have first : bytesTaken (rows ++ [attr.bytes]) ≤ dataSize := by
      rw [bytesTaken,List.map_append,List.sum_append] at room
      exact Nat.le_of_add_right_le room
    obtain ⟨b1,added,begun1⟩ := begun.addRow attr.bytes_ne_nil first
    obtain ⟨b2,done,begun2⟩ := ih begun1 room
    rw [Db.setPool_setPool] at done begun2
    refine ⟨b2,?_,begun2⟩
    rw [Minirel.addAll,List.foldlM_cons,AttrCatalog.addInfo,added]
    exact done

end Begun

-- The books of a file with one more object that has been opened and not yet used.
def inUse (k : Pool.Books) (n : Int) : Pool.Books := (k.opened.hold k.first false).hold n false

theorem createHeapFile_begun (named : name ≠ []) (missing : db.files name = none) :
    ∃ b hdr n, db.createHeapFile name = .ok (.ok,db.setPool name b) ∧
      Begun (db.setPool name b) name {Pool.Books.unused with first := hdr} n [] := by
  obtain ⟨b,hdr,n,created,holds⟩ := Db.createHeapFile_missing named missing
  exact ⟨b,hdr,n,created,[],0,holds,Appending.start rfl,Int.le_refl _⟩

namespace Begun

variable {rows : List (List UInt8)}

theorem newHeapFile (begun : Begun db catalog k n rows) :
    ∃ b, db.newHeapFile catalog = .ok (.ok,HeapFile.fresh k.first n,db.setPool catalog b) ∧
      Begun (db.setPool catalog b) catalog (inUse k n) n rows := by
  obtain ⟨d,recCnt,holds,appending,space⟩ := begun
  obtain ⟨b,made,holds'⟩ := Db.newHeapFile_spec holds
  exact ⟨b,made,d,recCnt,holds',appending,space⟩

theorem deleteHeapFile (owned : k.Owned) (begun : Begun db catalog (inUse k n) n rows) :
    ∃ b, db.deleteHeapFile catalog (HeapFile.fresh k.first n) = .ok (db.setPool catalog b) ∧
      Begun (db.setPool catalog b) catalog k n rows := by
  obtain ⟨d,recCnt,holds,appending,space⟩ := begun
  obtain ⟨b,deleted,holds'⟩ := Db.deleteHeapFile_spec owned holds
  exact ⟨b,deleted,d,recCnt,holds',appending,space⟩

end Begun

-- Both catalogs, beside the files that were there before.
structure Building (db0 db : Db) (rk ak : Pool.Books) (n m : Int) (rels attrs : List (List UInt8)) : Prop where
  relCat : Begun db relCatName rk n rels
  attrCat : Begun db attrCatName ak m attrs
  others : ∀ name, name ≠ relCatName → name ≠ attrCatName → db.files name = db0.files name

def relRows : List (List UInt8) := [RelDesc.bytes ⟨relCatName,2⟩,RelDesc.bytes ⟨attrCatName,5⟩]
def attrRows : List (List UInt8) := relCatAttributes.map AttrDesc.bytes ++ attrCatAttributes.map AttrDesc.bytes

namespace Building

variable {db0 : Db} {rk ak rk' ak' : Pool.Books} {m : Int} {rels rels' attrs attrs' : List (List UInt8)} {b : Pool}

theorem relCat_step (building : Building db0 db rk ak n m rels attrs)
    (begun : Begun (db.setPool relCatName b) relCatName rk' n rels') :
    Building db0 (db.setPool relCatName b) rk' ak n m rels' attrs := by
  refine ⟨begun,building.attrCat.beside b (by decide),?_⟩
  intro name not_rel not_attr
  rw [Db.setPool_other b not_rel]
  exact building.others name not_rel not_attr

theorem attrCat_step (building : Building db0 db rk ak n m rels attrs)
    (begun : Begun (db.setPool attrCatName b) attrCatName ak' m attrs') :
    Building db0 (db.setPool attrCatName b) rk ak' n m rels attrs' := by
  refine ⟨building.relCat.beside b (by decide),begun,?_⟩
  intro name not_rel not_attr
  rw [Db.setPool_other b not_attr]
  exact building.others name not_rel not_attr

theorem addInfo (building : Building db0 db rk ak n m rels attrs) (d : RelDesc)
    (room : bytesTaken (rels ++ [d.bytes]) ≤ dataSize) :
    ∃ db', RelCatalog.addInfo db d = .ok (.ok,db') ∧ Building db0 db' rk ak n m (rels ++ [d.bytes]) attrs := by
  obtain ⟨b,added,begun⟩ := building.relCat.addRow d.bytes_ne_nil room
  exact ⟨_,added,building.relCat_step begun⟩

theorem addAll (building : Building db0 db rk ak n m rels attrs) (list : List AttrDesc)
    (room : bytesTaken (attrs ++ list.map AttrDesc.bytes) ≤ dataSize) :
    ∃ db', Minirel.addAll db list = .ok db' ∧ Building db0 db' rk ak n m rels (attrs ++ list.map AttrDesc.bytes) := by
  obtain ⟨b,added,begun⟩ := building.attrCat.addAll room
  exact ⟨_,added,building.attrCat_step begun⟩

end Building

theorem dbcreate_spec (no_rel : db.files relCatName = none) (no_attr : db.files attrCatName = none) :
    ∃ db' hdr hdr' n m, dbcreate db = .ok db' ∧
      Building db db' {Pool.Books.unused with first := hdr} {Pool.Books.unused with first := hdr'} n m relRows
        attrRows := by
  have unused : ∀ first, ({Pool.Books.unused with first := first} : Pool.Books).Owned := fun _ _ marked =>
    False.elim marked
  obtain ⟨b1,hdr,n,created1,begun1⟩ := createHeapFile_begun (by decide) no_rel
  have no_attr1 : (db.setPool relCatName b1).files attrCatName = none := by
    rw [Db.setPool_other b1 (by decide)]
    exact no_attr
  obtain ⟨b2,hdr',m,created2,begun2⟩ := createHeapFile_begun (by decide) no_attr1
  have started : Building db ((db.setPool relCatName b1).setPool attrCatName b2) {Pool.Books.unused with first := hdr}
      {Pool.Books.unused with first := hdr'} n m [] [] := by
    refine ⟨begun1.beside b2 (by decide),begun2,?_⟩
    intro name not_rel not_attr
    rw [Db.setPool_other b2 not_attr,Db.setPool_other b1 not_rel]
  obtain ⟨b3,made3,begun3⟩ := started.relCat.newHeapFile
  have opened3 := started.relCat_step begun3
  obtain ⟨b4,made4,begun4⟩ := opened3.attrCat.newHeapFile
  have opened4 := opened3.attrCat_step begun4
  obtain ⟨db5,added5,row5⟩ := opened4.addInfo ⟨relCatName,2⟩ (by decide)
  obtain ⟨db6,added6,rows6⟩ := row5.addAll relCatAttributes (by decide)
  obtain ⟨db7,added7,row7⟩ := rows6.addInfo ⟨attrCatName,5⟩ (by decide)
  obtain ⟨db8,added8,rows8⟩ := row7.addAll attrCatAttributes (by decide)
  obtain ⟨b9,closed9,begun9⟩ := rows8.relCat.deleteHeapFile (unused hdr)
  have closed_rel := rows8.relCat_step begun9
  obtain ⟨b10,closed10,begun10⟩ := closed_rel.attrCat.deleteHeapFile (unused hdr')
  refine ⟨_,hdr,hdr',n,m,?_,closed_rel.attrCat_step begun10⟩
  simp only [dbcreate,call,created1,created2,made3,made4,added5,added6,added7,added8,closed9,closed10,ok_bind,if_true]

-- The interpreter keeps both catalogs open.
theorem openCatalogs_spec {db0 : Db} {rk ak : Pool.Books} {m : Int} {rels attrs : List (List UInt8)}
    (building : Building db0 db rk ak n m rels attrs) :
    ∃ db', openCatalogs db = .ok db' ∧ Building db0 db' (inUse rk n) (inUse ak m) n m rels attrs := by
  obtain ⟨b1,made1,begun1⟩ := building.relCat.newHeapFile
  have opened := building.relCat_step begun1
  obtain ⟨b2,made2,begun2⟩ := opened.attrCat.newHeapFile
  refine ⟨_,?_,opened.attrCat_step begun2⟩
  simp only [openCatalogs,call,made1,made2,ok_bind,if_true]

end Minirel
