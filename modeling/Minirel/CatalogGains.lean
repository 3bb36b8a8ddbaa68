import Minirel.CatalogRows
import Minirel.Create

namespace Minirel
open ByteMemory SlotDirectory Page Heap

theorem length_bytesAt (bytes : List UInt8) (count : Nat) : (bytesAt bytes count).length = count := by
  rw [bytesAt,List.length_map,List.length_range]

theorem bytesAt_front {front : List UInt8} {count : Nat} (rest : List UInt8) (fits : front.length = count) :
    bytesAt (front ++ rest) count = front := by
  subst fits
  apply List.ext_getElem
  · rw [length_bytesAt]
  · intro i _ below
    simp [bytesAt,List.getElem?_append_left below,below]

theorem drop_name (name : Name) (rest : List UInt8) : (bytesAt name maxName ++ rest).drop 32 = rest :=
    List.drop_left' (length_bytesAt ..)
theorem drop_int (v : Int) (rest : List UInt8) : (encode 4 v ++ rest).drop 4 = rest :=
    List.drop_left' (length_encode ..)

-- A name in its char array, which has room for the terminator.
theorem cstring_padded {name : Name} (clean : 0 ∉ name) (short : name.length < maxName) (rest : List UInt8) :
    cstring (bytesAt name maxName ++ rest) = name := by
  have padded : ∃ zeros, bytesAt name maxName = name ++ 0::zeros := by
    refine ⟨List.replicate (maxName - name.length - 1) 0,?_⟩
    apply List.ext_getElem
    · rw [length_bytesAt,List.length_append,List.length_cons,List.length_replicate]
      omega
    · intro i below _
      by_cases inside : i < name.length
      · simp [bytesAt,inside]
      · have zero : ((0 : UInt8)::List.replicate (maxName - name.length - 1) 0) =
            List.replicate (maxName - name.length) 0 := by
          rw [← List.replicate_succ]
          congr 1
          omega
        simp only [zero]
        rw [List.getElem_append_right (by omega)]
        simp [bytesAt,inside]
  obtain ⟨zeros,padded⟩ := padded
  rw [padded,cstring,List.append_assoc,List.cons_append,List.takeWhile_append_of_pos]
  · simp
  · intro byte member
    simpa using fun zero : byte = 0 => clean (zero ▸ member)

def IsInt (v : Int) : Prop := -2 ^ 31 ≤ v ∧ v < 2 ^ 31

instance (v : Int) : Decidable (IsInt v) := inferInstanceAs (Decidable (_ ∧ _))

theorem IsInt.decode {v : Int} (int : IsInt v) (rest : List UInt8) : decode (bytesAt (encode 4 v ++ rest) 4) = v := by
  rw [bytesAt_front rest (length_encode 4 v)]
  exact decode_encode_small (by have := int.1; norm_num; omega) (by have := int.2; norm_num; omega)

-- What fits a name's array.
def Fits (name : Name) : Prop := 0 ∉ name ∧ name.length < maxName

instance (name : Name) : Decidable (Fits name) := inferInstanceAs (Decidable (_ ∧ _))

theorem RelDesc.length_bytes (d : RelDesc) : d.bytes.length = RelDesc.size := by
  rw [RelDesc.bytes,List.length_append,length_bytesAt,length_encode]
  rfl

theorem RelDesc.bytes_ne_nil (d : RelDesc) : d.bytes ≠ [] := by
  apply List.ne_nil_of_length_pos
  rw [d.length_bytes]
  decide

theorem RelDesc.ofBytes_bytes {d : RelDesc} (named : Fits d.relName) (int : IsInt d.attrCnt) :
    RelDesc.ofBytes d.bytes = d := by
  have behind : d.bytes.drop 32 = encode 4 d.attrCnt ++ [] := by
    rw [RelDesc.bytes,drop_name,List.append_nil]
  rw [RelDesc.ofBytes,behind,int.decode,RelDesc.bytes,cstring_padded named.1 named.2]

theorem AttrDesc.length_bytes (d : AttrDesc) : d.bytes.length = AttrDesc.size := by
  simp only [AttrDesc.bytes,List.length_append,length_bytesAt,length_encode]
  rfl

theorem AttrDesc.bytes_ne_nil (d : AttrDesc) : d.bytes ≠ [] := by
  apply List.ne_nil_of_length_pos
  rw [d.length_bytes]
  decide

theorem AttrDesc.ofBytes_bytes {d : AttrDesc} (rel : Fits d.relName) (attr : Fits d.attrName)
    (offset : IsInt d.attrOffset)
    (type : IsInt d.attrType) (len : IsInt d.attrLen) : AttrDesc.ofBytes d.bytes = d := by
  have parts : d.bytes = bytesAt d.relName maxName ++ (bytesAt d.attrName maxName ++ (encode 4 d.attrOffset ++
      (encode 4 d.attrType ++ (encode 4 d.attrLen ++ [])))) := by simp [AttrDesc.bytes]
  have at32 : d.bytes.drop 32 = bytesAt d.attrName maxName ++
      (encode 4 d.attrOffset ++ (encode 4 d.attrType ++ (encode 4 d.attrLen ++ []))) := by
    rw [parts,drop_name]
  have at64 : d.bytes.drop 64 = encode 4 d.attrOffset ++ (encode 4 d.attrType ++ (encode 4 d.attrLen ++ [])) := by
    rw [show 64 = 32 + 32 from rfl,← List.drop_drop,at32,drop_name]
  have at68 : d.bytes.drop 68 = encode 4 d.attrType ++ (encode 4 d.attrLen ++ []) := by
    rw [show 68 = 64 + 4 from rfl,← List.drop_drop,at64,drop_int]
  have at72 : d.bytes.drop 72 = encode 4 d.attrLen ++ [] := by
    rw [show 72 = 68 + 4 from rfl,← List.drop_drop,at68,drop_int]
  rw [AttrDesc.ofBytes,at32,at64,at68,at72,offset.decode,type.decode,len.decode,cstring_padded attr.1 attr.2,parts,
    cstring_padded rel.1 rel.2]

section gains

variable {heap heap' : Heap} {new : List (List UInt8)} {relation : Name}

-- Which rows the catalog's filter takes for rows of a relation.
def OfRelation (relation : Name) (row : List UInt8) : Prop := relation.length < row.length ∧ cstring row = relation

instance (relation : Name) (row : List UInt8) : Decidable (OfRelation relation row) :=
    inferInstanceAs (Decidable (_ ∧ _))

theorem mem_rows {e : Entry} : e ∈ rows heap relation ↔ e ∈ records heap ∧ OfRelation relation e.2 := by
  rw [rows,List.mem_filter,decide_eq_true_iff]
  rfl

-- Rows of other relations change nothing for a relation, and those of one that had none are all it has.
theorem Gains.rows_other (gains : Gains heap heap' new) (others : ∀ row ∈ new, ¬ OfRelation relation row) :
    rows heap' relation = rows heap relation := by
  rw [rows,rows,← gains.kept,List.filter_filter]
  refine List.filter_congr fun e member => ?_
  by_cases old : e.1 ∈ (records heap).map Prod.fst
  · rw [decide_eq_true old,Bool.and_true]
  · have gained : e.2 ∈ new := by
      rw [← gains.gained]
      exact List.mem_map_of_mem (List.mem_filter.mpr ⟨member,decide_eq_true old⟩)
    rw [decide_eq_false old,Bool.and_false]
    exact decide_eq_false (others e.2 gained)

theorem Gains.rows_new (gains : Gains heap heap' new) (nodup : ((records heap').map Prod.fst).Nodup)
    (none_before : rows heap relation = [])
    (own : ∀ row ∈ new, OfRelation relation row) : (rows heap' relation).map Prod.snd = new := by
  refine (congrArg _ (List.filter_congr fun e member => ?_)).trans gains.gained
  by_cases old : e.1 ∈ (records heap).map Prod.fst
  · have before : e ∈ records heap := by
      obtain ⟨e',inside,same⟩ := List.mem_map.mp old
      have one : e' = e := List.inj_on_of_nodup_map nodup (gains.mem inside) member same
      exact one ▸ inside
    have foreign : ¬ OfRelation relation e.2 := by
      intro own
      have there : e ∈ rows heap relation := mem_rows.mpr ⟨before,own⟩
      rw [none_before] at there
      cases there
    rw [decide_eq_false (not_not_intro old)]
    exact decide_eq_false foreign
  · have gained : e.2 ∈ new := by
      rw [← gains.gained]
      exact List.mem_map_of_mem (List.mem_filter.mpr ⟨member,decide_eq_true old⟩)
    rw [decide_eq_true old]
    exact decide_eq_true (own e.2 gained)

end gains

namespace InsertFileScan

variable {k : Pool.Books} {recCnt : Int} {b : Pool} {s : InsertFileScan} {heap before : Heap} {n : Int}
  {d : Slots} {new : List (List UInt8)}

-- A row that a page can hold is refused only where the file can grow no more.
theorem insertRow_appends {row : List UInt8} (owned : k.Owned) (some_bytes : row ≠ [])
    (short : row.length + slotSize ≤ dataSize)
    (inserting : Inserting k recCnt b s before n d) (appending : Appending heap before n d new) :
    ∃ result s' b' recCnt' before' n' d', insertRecord b s (.of row) = .ok (result,s',b') ∧
      Inserting k recCnt' b' s' before' n' d' ∧
      ((∃ rid, result = .ok rid ∧ Appending heap before' n' d' (new ++ [row])) ∨ result = .error .unixErr ∧
        Appending heap before' n' d' new) := by
  have bound : row.length + 4 ≤ 1004 := short
  have room : spaceLeft [] = 1004 := rfl
  have size : dataSize = 1004 := rfl
  have slot : slotSize = 4 := rfl
  have inserts := inserting.insertRecord_spec owned some_bytes (by omega)
  generalize insertRecord b s (.of row) = outcome at inserts
  cases inserts with
  | here b' s' done =>
    exact ⟨_,s',b',_,before,n,_,rfl,done,.inl ⟨_,rfl,appending.put inserting.stored.nodup row⟩⟩
  | newPage b' s' m done =>
    have nodup := done.stored.nodup
    rw [pageNos_append] at nodup
    refine ⟨_,s',b',_,_,m,_,rfl,done,.inl ⟨_,rfl,(appending.link m).put ?_ row⟩⟩
    rw [pageNos_append]
    exact nodup
  | refused b' s' status why still =>
    rcases why with rfl | ⟨_,long⟩
    · exact ⟨_,s',b',_,before,n,d,rfl,still,.inr ⟨rfl,appending⟩⟩
    · omega
  | tooLong b' s' m why still => omega

end InsertFileScan

section add

variable {db : Db} {shelf : Shelf} {catalog : Name} {file : HeldFile} {heap before : Heap} {n : Int} {d : Slots}
  {new : List (List UInt8)}

-- The status that a call returned for its result.
def statusOf : Except Status RID → Status
  | .ok _ => .ok
  | .error status => status

-- A catalog that has gained rows over an earlier state, one open object after the other.
structure Gained (db : Db) (shelf : Shelf) (catalog : Name) (heap : Heap) (new : List (List UInt8)) : Prop where
  stands : db.Stands shelf
  ends : ∃ file before n d, shelf catalog = some file ∧ file.heap = before ++ [(n,d)] ∧ Appending heap before n d new

theorem addRow_gains {row : List UInt8} (gained : Gained db shelf catalog heap new) (some_bytes : row ≠ [])
    (short : row.length + slotSize ≤ dataSize) :
    ∃ status b file', (shelf catalog).map HeldFile.books = some file'.books ∧
      addRow db catalog row = .ok (status,db.setPool catalog b) ∧
      ((status = .ok ∧ Gained (db.setPool catalog b) (Function.update shelf catalog (some file')) catalog heap
        (new ++ [row])) ∨
        status = .unixErr ∧ Gained (db.setPool catalog b) (Function.update shelf catalog (some file')) catalog
          heap new) := by
  obtain ⟨stands,file,before,n,d,present,split,appending⟩ := gained
  have holds := stands catalog file present
  have owned : file.books.opened.Owned := holds.2.1
  obtain ⟨b1,s1,before1,n1,d1,made,split1,inserting⟩ := Db.newInsertFileScan_spec holds
  obtain ⟨rfl,same⟩ := List.append_inj' (split.symm.trans split1) rfl
  cases same
  obtain ⟨result,s2,b2,recCnt2,before2,n2,d2,ran,inserting2,told⟩ :=
    InsertFileScan.insertRow_appends owned some_bytes short inserting appending
  obtain ⟨b3,deleted,kept3,view3⟩ := db.deleteInsert_spec catalog holds.2.1 inserting2
  let file' : HeldFile := ⟨file.books,before2 ++ [(n2,d2)],recCnt2⟩
  have stands' := stands.put (b:=b3) file' (Db.holds_setPool holds.1 holds.2.1 kept3
    (by rw [view3]; exact inserting2.stored))
  have done : addRow db catalog row = .ok (statusOf result,db.setPool catalog b3) := by
    rw [addRow,made,ok_bind]
    dsimp only
    rw [if_neg (not_not_intro rfl),Db.insertRecord_at ran,ok_bind]
    dsimp only
    rw [deleted]
    cases result <;> rfl
  have books : (shelf catalog).map HeldFile.books = some file'.books := by rw [present,Option.map_some]
  rcases told with ⟨rid,rfl,appending2⟩ | ⟨rfl,appending2⟩
  · exact ⟨.ok,b3,file',books,done,.inl ⟨rfl,stands',file',before2,n2,d2,Function.update_self ..,rfl,appending2⟩⟩
  · exact ⟨.unixErr,b3,file',books,done,.inr ⟨rfl,stands',file',before2,n2,d2,Function.update_self ..,rfl,appending2⟩⟩

end add

-- Only the one file has been changed.
def Beside (name : Name) (db : Db) (shelf : Shelf) (db' : Db) (shelf' : Shelf) : Prop :=
  ∀ other, other ≠ name → db'.files other = db.files other ∧ shelf' other = shelf other

theorem Beside.refl (name : Name) (db : Db) (shelf : Shelf) : Beside name db shelf db shelf := fun _ _ => ⟨rfl,rfl⟩

theorem Beside.trans {name : Name} {db db' db'' : Db} {shelf shelf' shelf'' : Shelf}
    (one : Beside name db shelf db' shelf')
    (two : Beside name db' shelf' db'' shelf'') : Beside name db shelf db'' shelf'' := fun other apart =>
  ⟨(two other apart).1.trans (one other apart).1,(two other apart).2.trans (one other apart).2⟩

theorem Beside.put (name : Name) (db : Db) (shelf : Shelf) (b : Pool) (file' : Option HeldFile) :
    Beside name db shelf (db.setPool name b) (Function.update shelf name file') := fun _ apart =>
  ⟨Db.setPool_other b apart,Function.update_of_ne apart ..⟩

-- The rows that createRel makes of a relation's attributes, each behind the one before.
def describe (relation : Name) : List AttrInfo → Int → List AttrDesc
  | [],_ => []
  | attr::attrs,offset =>
    ⟨relation,attr.attrName,offset,attr.attrType,attr.attrLen⟩::describe relation attrs (offset + attr.attrLen)

theorem addAttributes_gains (relation : Name) (offset : Int) {attrs : List AttrInfo} {db : Db} {shelf : Shelf}
    {heap : Heap}
    {new : List (List UInt8)} (gained : Gained db shelf attrCatName heap new)
    (short : ∀ attr ∈ attrs, attr.attrName.length < maxName) :
    ∃ status db' shelf', RelCatalog.addAttributes relation attrs offset db = .ok (status,db') ∧
      Beside attrCatName db shelf db' shelf' ∧
      (shelf' attrCatName).map HeldFile.books = (shelf attrCatName).map HeldFile.books ∧
      (status = .ok ∧ Gained db' shelf' attrCatName heap (new ++ (describe relation attrs offset).map AttrDesc.bytes) ∨
        status = .unixErr) := by
  induction attrs generalizing db shelf new offset with
  | nil =>
    refine ⟨.ok,db,shelf,rfl,Beside.refl _ _ _,rfl,.inl ⟨rfl,?_⟩⟩
    rw [describe,List.map_nil,List.append_nil]
    exact gained
  | cons attr attrs ih =>
    have named := short attr (List.mem_cons_self ..)
    obtain ⟨status,b,file',books,added,told⟩ :=
      addRow_gains gained (AttrDesc.bytes_ne_nil ⟨relation,attr.attrName,offset,attr.attrType,attr.attrLen⟩)
      (by rw [AttrDesc.length_bytes]; decide)
    have begun : RelCatalog.addAttributes relation (attr::attrs) offset db = (do
        if status ≠ .ok then return (status,db.setPool attrCatName b)
        RelCatalog.addAttributes relation attrs (offset + attr.attrLen) (db.setPool attrCatName b)) := by
      rw [RelCatalog.addAttributes,if_neg (Nat.not_le_of_lt named),AttrCatalog.addInfo,added,ok_bind]
    have aside := Beside.put attrCatName db shelf b (some file')
    have books' : (Function.update shelf attrCatName (some file') attrCatName).map HeldFile.books =
        (shelf attrCatName).map HeldFile.books := by
      rw [Function.update_self,Option.map_some,books]
    rw [begun]
    rcases told with ⟨rfl,gained'⟩ | ⟨rfl,_⟩
    · rw [if_neg (not_not_intro rfl)]
      obtain ⟨status,db2,shelf2,done,aside2,books2,told2⟩ :=
        ih _ gained' fun a member => short a (List.mem_cons_of_mem _ member)
      rw [List.append_assoc] at told2
      exact ⟨status,db2,shelf2,done,aside.trans aside2,books2.trans books',told2⟩
    · rw [if_pos (by decide)]
      exact ⟨.unixErr,_,_,rfl,aside,books',.inr rfl⟩

end Minirel
