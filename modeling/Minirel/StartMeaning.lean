import Minirel.CatalogObjects

namespace Minirel
open ByteMemory SlotDirectory Page Heap Db

variable {db db0 db' : Db} {name catalog : Name} {k rk ak : Pool.Books} {heap : Heap} {recCnt n m : Int}
  {d : Slots} {row : List UInt8}
  {rows rels attrs : List (List UInt8)}

-- The pages of both catalogs: three for an empty file, and no more than one for each row.
structure Within (db : Db) (rels attrs : Nat) : Prop where
  relCat : db.length relCatName ≤ rels
  attrCat : db.length attrCatName ≤ attrs

namespace Within

variable {r a r' a' : Nat} {b : Pool}

theorem same (within : Within db r a) (same : ∀ other, db'.length other = db.length other) : Within db' r a :=
  ⟨(same _).le.trans within.relCat,(same _).le.trans within.attrCat⟩

theorem relCat_step (within : Within db r a) (longer : (db.setPool relCatName b).length relCatName ≤ r') :
    Within (db.setPool relCatName b) r' a :=
  ⟨longer,((elsewhere_setPool db relCatName b).length (by decide)).le.trans within.attrCat⟩

theorem attrCat_step (within : Within db r a) (longer : (db.setPool attrCatName b).length attrCatName ≤ a') :
    Within (db.setPool attrCatName b) r a' :=
  ⟨((elsewhere_setPool db attrCatName b).length (by decide)).le.trans within.relCat,longer⟩

end Within

namespace Begun

theorem newHeapFile_lengths (begun : Begun db catalog k n rows) :
    Ends (fun r => ∀ other, r.2.2.length other = db.length other) (db.newHeapFile catalog) := by
  obtain ⟨d,recCnt,holds,_⟩ := begun
  exact Db.newHeapFile_lengths holds

theorem deleteHeapFile_lengths (owned : k.Owned) (begun : Begun db catalog (inUse k n) n rows) :
    Ends (fun db' => ∀ other, db'.length other = db.length other)
      (db.deleteHeapFile catalog (HeapFile.fresh k.first n)) := by
  obtain ⟨d,recCnt,holds,_⟩ := begun
  exact Db.deleteHeapFile_lengths owned holds

theorem addRow_length (begun : Begun db catalog k n rows) (some_bytes : row ≠ [])
    (room : bytesTaken (rows ++ [row]) ≤ dataSize) :
    Ends (fun r => r.2.length catalog ≤ db.length catalog + 1) (Minirel.addRow db catalog row) := by
  obtain ⟨d,recCnt,holds,_⟩ := begun
  have stands : db.Stands (Function.update (fun _ => none) catalog (some ⟨k,[(n,d)],recCnt⟩)) := by
    intro other file there
    by_cases here : other = catalog
    · rw [here,Function.update_self] at there
      cases there
      exact here ▸ holds
    · rw [Function.update_of_ne here] at there
      cases there
  have short : row.length ≤ bytesTaken (rows ++ [row]) := by
    rw [bytesTaken,List.map_append,List.sum_append,List.map_singleton,List.sum_singleton]
    omega
  have capacity : dataSize < 2 ^ 31 := by decide
  exact Minirel.addRow_length stands (Function.update_self ..) some_bytes (by omega)

theorem addAll_length {attrs : List AttrDesc} (begun : Begun db attrCatName k n rows)
    (room : bytesTaken (rows ++ attrs.map AttrDesc.bytes) ≤ dataSize) :
    Ends (fun r => r.length attrCatName ≤ db.length attrCatName + attrs.length) (Minirel.addAll db attrs) := by
  induction attrs generalizing db rows with
  | nil => exact .ok (Nat.le_refl _)
  | cons attr rest ih =>
    have split : rows ++ (attr::rest).map AttrDesc.bytes = rows ++ [attr.bytes] ++ rest.map AttrDesc.bytes := by simp
    rw [split] at room
    have first : bytesTaken (rows ++ [attr.bytes]) ≤ dataSize := by
      rw [bytesTaken,List.map_append,List.sum_append] at room
      exact Nat.le_of_add_right_le room
    obtain ⟨b,added,begun1⟩ := begun.addRow attr.bytes_ne_nil first
    have longer := begun.addRow_length attr.bytes_ne_nil first _ added
    rw [Minirel.addAll,List.foldlM_cons,AttrCatalog.addInfo,added]
    intro db' done
    have rest_longer := ih begun1 room db' done
    rw [List.length_cons]
    dsimp only at longer
    omega

end Begun

namespace Building

variable {r a : Nat}

theorem newRelCat (building : Building db0 db rk ak n m rels attrs) (within : Within db r a) :
    ∃ db', db.newHeapFile relCatName = .ok (.ok,HeapFile.fresh rk.first n,db') ∧
      Building db0 db' (inUse rk n) ak n m rels attrs ∧ Within db' r a := by
  obtain ⟨b,made,begun⟩ := building.relCat.newHeapFile
  exact ⟨_,made,building.relCat_step begun,within.same (building.relCat.newHeapFile_lengths _ made)⟩

theorem newAttrCat (building : Building db0 db rk ak n m rels attrs) (within : Within db r a) :
    ∃ db', db.newHeapFile attrCatName = .ok (.ok,HeapFile.fresh ak.first m,db') ∧
      Building db0 db' rk (inUse ak m) n m rels attrs ∧ Within db' r a := by
  obtain ⟨b,made,begun⟩ := building.attrCat.newHeapFile
  exact ⟨_,made,building.attrCat_step begun,within.same (building.attrCat.newHeapFile_lengths _ made)⟩

theorem addInfo_within (building : Building db0 db rk ak n m rels attrs) (within : Within db r a) (d : RelDesc)
    (room : bytesTaken (rels ++ [d.bytes]) ≤ dataSize) :
    ∃ db', RelCatalog.addInfo db d = .ok (.ok,db') ∧ Building db0 db' rk ak n m (rels ++ [d.bytes]) attrs ∧
      Within db' (r + 1) a := by
  obtain ⟨b,added,begun⟩ := building.relCat.addRow d.bytes_ne_nil room
  have longer := building.relCat.addRow_length d.bytes_ne_nil room _ added
  exact ⟨_,added,building.relCat_step begun,within.relCat_step (longer.trans (Nat.add_le_add_right within.relCat 1))⟩

theorem addAll_within (building : Building db0 db rk ak n m rels attrs) (within : Within db r a) (list : List AttrDesc)
    (room : bytesTaken (attrs ++ list.map AttrDesc.bytes) ≤ dataSize) :
    ∃ db', Minirel.addAll db list = .ok db' ∧ Building db0 db' rk ak n m rels (attrs ++ list.map AttrDesc.bytes) ∧
      Within db' r (a + list.length) := by
  obtain ⟨b,added,begun⟩ := building.attrCat.addAll room
  have longer := building.attrCat.addAll_length room _ added
  exact ⟨_,added,building.attrCat_step begun,within.attrCat_step (longer.trans (Nat.add_le_add_right within.attrCat _))⟩

end Building

theorem dbcreate_within (no_rel : db.files relCatName = none) (no_attr : db.files attrCatName = none) :
    ∃ db' hdr hdr' n m, dbcreate db = .ok db' ∧
      Building db db' {Pool.Books.unused with first := hdr} {Pool.Books.unused with first := hdr'} n m relRows
        attrRows ∧ Within db' 5 10 := by
  have unused : ∀ first, ({Pool.Books.unused with first := first} : Pool.Books).Owned := fun _ _ marked =>
    False.elim marked
  obtain ⟨b1,hdr,n,created1,begun1⟩ := createHeapFile_begun (by decide) no_rel
  have no_attr1 : (db.setPool relCatName b1).files attrCatName = none := by
    rw [Db.setPool_other b1 (by decide)]
    exact no_attr
  obtain ⟨b2,hdr',m,created2,begun2⟩ := createHeapFile_begun (by decide) no_attr1
  have started : Building db ((db.setPool relCatName b1).setPool attrCatName b2) {Pool.Books.unused with first := hdr}
      {Pool.Books.unused with first := hdr'} n m [] [] := by
    refine ⟨begun1.beside b2 (by decide),begun2,?_⟩
    intro name not_rel not_attr
    rw [Db.setPool_other b2 not_attr,Db.setPool_other b1 not_rel]
  have rel_three := Db.createHeapFile_length (by decide) no_rel _ created1
  have attr_three := Db.createHeapFile_length (by decide) no_attr1 _ created2
  have within : Within ((db.setPool relCatName b1).setPool attrCatName b2) 3 3 :=
    ⟨((elsewhere_setPool _ attrCatName b2).length (by decide)).le.trans rel_three.le,attr_three.le⟩
  obtain ⟨db3,made3,building3,within3⟩ := started.newRelCat within
  obtain ⟨db4,made4,building4,within4⟩ := building3.newAttrCat within3
  obtain ⟨db5,added5,building5,within5⟩ := building4.addInfo_within within4 ⟨relCatName,2⟩ (by decide)
  obtain ⟨db6,added6,building6,within6⟩ := building5.addAll_within within5 relCatAttributes (by decide)
  obtain ⟨db7,added7,building7,within7⟩ := building6.addInfo_within within6 ⟨attrCatName,5⟩ (by decide)
  obtain ⟨db8,added8,building8,within8⟩ := building7.addAll_within within7 attrCatAttributes (by decide)
  obtain ⟨b9,closed9,begun9⟩ := building8.relCat.deleteHeapFile (unused hdr)
  have building9 := building8.relCat_step begun9
  have within9 := within8.same (building8.relCat.deleteHeapFile_lengths (unused hdr) _ closed9)
  obtain ⟨b10,closed10,begun10⟩ := building9.attrCat.deleteHeapFile (unused hdr')
  have within10 := within9.same (building9.attrCat.deleteHeapFile_lengths (unused hdr') _ closed10)
  refine ⟨_,hdr,hdr',n,m,?_,building9.attrCat_step begun10,within10⟩
  simp only [dbcreate,call,created1,created2,made3,made4,added5,added6,added7,added8,closed9,closed10,ok_bind,if_true]

end Minirel
