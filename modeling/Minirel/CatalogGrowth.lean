import Minirel.QueryFrames

namespace Minirel
open ByteMemory SlotDirectory Page Heap Db

namespace InsertFileScan

variable {k : Pool.Books} {recCnt : Int} {b : Pool} {s : InsertFileScan} {before : Heap} {n : Int} {d : Slots}

theorem counted_file (b : Pool) (s : InsertFileScan) : Ends (fun r => r.2.file = b.file) (counted b s) := by
  rw [counted]
  exact (Ends.any _).bind fun header _ => .ok (Pool.assign_file ..)

-- A record takes at most one more page.
theorem Inserting.insertRecord_length (owned : k.Owned) (inserting : Inserting k recCnt b s before n d) (rec : Record) :
    Ends (fun r => r.2.2.file.length ≤ b.file.length + 1) (insertRecord b s rec) := by
  have placed : ∀ (b1 : Pool) (s1 : InsertFileScan) (page : Page) (rid : RID), b1.file.length ≤ b.file.length + 1 →
      Ends (fun r : Except Status RID × InsertFileScan × Pool => r.2.2.file.length ≤ b.file.length + 1)
        (InsertFileScan.counted (b1.assign s1.curPage page) s1 >>= fun r => .ok (.ok rid,r.1,r.2)) := by
    intro b1 s1 page rid bound
    refine (counted_file _ s1).bind fun r same => .ok ?_
    rw [same,Pool.assign_file]
    exact bound
  rw [insertRecord]
  split
  · exact .ok (Nat.le_succ _)
  rw [if_neg (by rw [inserting.curPage]; exact Option.some_ne_none _),insertOnCurrentPage]
  refine (Ends.any _).bind fun page _ => ?_
  split
  · exact placed b s _ _ (Nat.le_succ _)
  rw [insertOnNewPage]
  rcases linkNewPage_spec owned inserting with failed | ⟨b1,s1,m,linked,_,_,longer⟩
  · rw [linkNewPage,failed]
    exact .ok (Nat.le_succ _)
  · rw [linked,ok_bind]
    dsimp only
    refine (Ends.any _).bind fun page1 _ => ?_
    split
    · exact placed b1 s1 _ _ longer.le
    · exact .ok longer.le

end InsertFileScan

variable {db db' : Db} {shelf shelf' : Shelf} {base : Db} {schema : Schema} {catalog relation : Name}
  {file : HeldFile} {heap : Heap}
  {new : List (List UInt8)} {row : List UInt8} {attrs : List AttrInfo}

theorem addRow_length (stands : db.Stands shelf) (present : shelf catalog = some file) (some_bytes : row ≠ [])
    (int : row.length < 2 ^ 31) :
    Ends (fun r => r.2.length catalog ≤ db.length catalog + 1) (addRow db catalog row) := by
  have holds := stands catalog file present
  have owned : file.books.opened.Owned := holds.2.1
  obtain ⟨b0,found,kept0,_⟩ := holds.2.2
  obtain ⟨b1,s1,before,n,d,made,split1,inserting,view1⟩ := newInsertFileScan_view holds found
  have begun : b1.file.length = db.length catalog := by
    rw [kept0.length_of_view inserting.kept view1,Db.length,found]
    rfl
  obtain ⟨result,s2,b2,recCnt2,before2,n2,d2,ran,inserting2,_⟩ :=
    InsertFileScan.insertRecord_appends owned some_bytes int inserting (Appending.start split1)
  have grown := inserting.insertRecord_length owned (.of row) _ ran
  obtain ⟨b3,deleted,kept3,view3⟩ := db.deleteInsert_spec catalog holds.2.1 inserting2
  rw [addRow,made,ok_bind]
  dsimp only
  rw [if_neg (not_not_intro rfl),insertRecord_at ran,ok_bind]
  dsimp only
  rw [deleted,ok_bind]
  have bound : (db.setPool catalog b3).length catalog ≤ db.length catalog + 1 := by
    rw [length_setPool,inserting2.kept.length_of_view kept3 view3,← begun]
    exact grown
  cases result with
  | ok rid => exact .ok bound
  | error status => exact .ok bound

theorem addRow_grows (gained : Gained db shelf catalog heap new) (some_bytes : row ≠ [])
    (short : row.length + slotSize ≤ dataSize)
    (room : db.length catalog < 2 ^ 31) :
    ∃ b file', addRow db catalog row = .ok (.ok,db.setPool catalog b) ∧
      Gained (db.setPool catalog b) (Function.update shelf catalog (some file')) catalog heap (new ++ [row]) ∧
      (db.setPool catalog b).length catalog ≤ db.length catalog + 1 := by
  obtain ⟨status,b,file',_,added,told⟩ := addRow_gains gained some_bytes short
  obtain ⟨stands,file,_,_,_,present,_⟩ := gained
  have int : row.length < 2 ^ 31 := by
    have size : dataSize = 1004 := rfl
    omega
  have bound := addRow_length stands present some_bytes int _ added
  obtain ⟨status',_,_,added',_,filled⟩ := stands.addRow_fill present some_bytes int
  obtain rfl : status = status' := congrArg Prod.fst (Except.ok.inj (added.symm.trans added'))
  obtain ⟨_,_,b0,found,_⟩ := stands catalog file present
  have takes : db.Takes catalog file.heap row.length := by
    refine ⟨short,.inr ⟨b0,found,?_⟩⟩
    rw [Db.length,found] at room
    exact room
  rcases told with ⟨rfl,gained'⟩ | ⟨rfl,_⟩
  · exact ⟨b,file',added,gained',bound⟩
  · cases filled with
    | refused failed full same => exact absurd takes full

-- The rows of a relation's attributes, in a file that has room for a page for each.
theorem addAttributes_grows (gained : Gained db shelf attrCatName heap new) (relation : Name) (offset : Int)
    (short : ∀ attr ∈ attrs, attr.attrName.length < maxName) (room : db.length attrCatName + attrs.length ≤ 2 ^ 31) :
    ∃ db' shelf', RelCatalog.addAttributes relation attrs offset db = .ok (.ok,db') ∧
      Beside attrCatName db shelf db' shelf' ∧
      Gained db' shelf' attrCatName heap (new ++ (describe relation attrs offset).map AttrDesc.bytes) ∧
      db'.length attrCatName ≤ db.length attrCatName + attrs.length := by
  induction attrs generalizing db shelf new offset with
  | nil =>
    refine ⟨db,shelf,rfl,Beside.refl _ _ _,?_,Nat.le_refl _⟩
    rw [describe,List.map_nil,List.append_nil]
    exact gained
  | cons attr attrs ih =>
    rw [List.length_cons] at room
    have named := short attr (List.mem_cons_self ..)
    obtain ⟨b,file',added,gained',bound⟩ := addRow_grows gained
      (AttrDesc.bytes_ne_nil ⟨relation,attr.attrName,offset,attr.attrType,attr.attrLen⟩)
      (by rw [AttrDesc.length_bytes]; decide) (by omega)
    obtain ⟨db2,shelf2,done,aside,gained2,bound2⟩ :=
      ih gained' (offset + attr.attrLen) (fun a member => short a (List.mem_cons_of_mem _ member)) (by omega)
    rw [List.append_assoc] at gained2
    refine ⟨db2,shelf2,?_,(Beside.put attrCatName db shelf b (some file')).trans aside,gained2,
      by rw [List.length_cons]; omega⟩
    rw [RelCatalog.addAttributes,if_neg (Nat.not_le_of_lt named),AttrCatalog.addInfo,added,ok_bind]
    exact done

end Minirel
