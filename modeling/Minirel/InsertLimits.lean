import Minirel.CatalogCalls
import Minirel.HeapWriters
import Minirel.PartialWork

namespace Minirel
open ByteMemory SlotDirectory Page Heap

namespace InsertFileScan

variable {k : Pool.Books} {recCnt : Int} {b : Pool} {s : InsertFileScan} {before : Heap} {n : Int} {d : Slots}
  {bytes : List UInt8}

-- An object that gets a new page when it asks for one.
structure Ready (k : Pool.Books) (recCnt : Int) (b : Pool) (s : InsertFileScan) (before : Heap) (n : Int) (d : Slots) :
    Prop where
  owned : k.Owned
  inserting : Inserting k recCnt b s before n d
  allocates : ∃ m, b.allocPage.1 = .ok m

-- What goes onto the page, the counting behind it succeeds.
theorem Inserting.counts (inserting : Inserting k recCnt b s before n d) (q : Page) :
    ∃ s' b', InsertFileScan.counted (b.assign s.curPage q) s = .ok (s',b') := by
  obtain ⟨header,at_header,_⟩ := inserting.stored.header
  obtain ⟨kept1,view1⟩ := inserting.kept.assign q
  rw [← inserting.curPage] at kept1 view1
  rw [Pool.Books.hold_comm] at kept1
  have at_header1 : (b.assign s.curPage q).view k.first = some header := by
    rw [view1,if_neg inserting.stored.other]
    exact at_header
  have read := kept1.deref at_header1
  rw [← inserting.headerPage] at read
  simp only [InsertFileScan.counted,read,ok_bind]
  exact ⟨_,_,rfl⟩

theorem spaceLeft_le (d : Slots) : spaceLeft d ≤ spaceLeft [] := by
  simp only [spaceLeft,List.length_nil,dataUsed,entries,entriesFrom,size,List.map_nil,List.sum_nil,slotSize_eq]
  omega

theorem room_empty : spaceLeft [] = (dataSize : Int) := rfl

theorem short_record (short : bytes.length ≤ dataSize) : ¬ (Record.of bytes).length % 2 ^ 32 > dataSize := by
  rw [dataSize_eq] at *
  dsimp only [Record.of]
  omega

theorem Inserting.put_room (inserting : Inserting k recCnt b s before n d)
    (room : bytes.length + slotSize ≤ spaceLeft d) :
    ∃ rid s' b', insertOnCurrentPage b s (.of bytes) = .ok (.ok rid,s',b') := by
  obtain ⟨p,_,read,held,_⟩ := inserting.page
  obtain ⟨q,inserted,_,_⟩ := held.insert_room room
  obtain ⟨s',b',counted⟩ := inserting.counts q
  refine ⟨⟨n,firstFree d⟩,s',b',?_⟩
  rw [insertOnCurrentPage,read,ok_bind,inserted]
  dsimp only
  rw [counted]
  rfl

theorem Inserting.put_full (inserting : Inserting k recCnt b s before n d)
    (full : spaceLeft d < bytes.length + slotSize) :
    insertOnCurrentPage b s (.of bytes) = insertOnNewPage b s (.of bytes) := by
  obtain ⟨p,_,read,held,_⟩ := inserting.page
  rw [insertOnCurrentPage,read,ok_bind,held.insert_full full]

-- insertRecord as far as the check of the length.
theorem Inserting.insert_short (inserting : Inserting k recCnt b s before n d)
    (short : ¬ (Record.of bytes).length % 2 ^ 32 > dataSize) :
    insertRecord b s (.of bytes) = insertOnCurrentPage b s (.of bytes) := by
  rw [insertRecord,if_neg short,if_neg (by rw [inserting.curPage]; exact Option.some_ne_none _)]

theorem insert_long {rec : Record} (long : rec.length % 2 ^ 32 > dataSize) :
    insertRecord b s rec = .ok (.error .invalidRecLen,s,b) := by
  rw [insertRecord,if_pos long]
  rfl

-- A record that an empty page has room for goes onto this page or the next.
theorem Ready.insert_fits (ready : Ready k recCnt b s before n d) (fits : bytes.length + slotSize ≤ dataSize) :
    ∃ rid s' b', insertRecord b s (.of bytes) = .ok (.ok rid,s',b') := by
  obtain ⟨owned,inserting,allocates⟩ := ready
  rw [inserting.insert_short (short_record (Nat.le_of_add_right_le fits))]
  rcases lt_or_ge (spaceLeft d) (bytes.length + slotSize) with full | room
  · rw [inserting.put_full full]
    rcases linkNewPage_spec owned inserting with failed | ⟨b1,s1,m,linked,now,_⟩
    · obtain ⟨m,allocated⟩ := allocates
      rw [failed] at allocated
      cases allocated
    · obtain ⟨p,_,read,held,_⟩ := now.page
      have room : bytes.length + slotSize ≤ spaceLeft [] := by rw [room_empty]; exact_mod_cast fits
      obtain ⟨q,inserted,_,_⟩ := held.insert_room room
      obtain ⟨s2,b2,counted⟩ := now.counts q
      refine ⟨⟨m,firstFree ([] : Slots)⟩,s2,b2,?_⟩
      rw [insertOnNewPage,linked,ok_bind]
      dsimp only
      rw [read,ok_bind,inserted]
      dsimp only
      rw [counted]
      rfl
  · exact inserting.put_room room

-- A record that the first check lets through and no page has room for leaves a new page behind.
theorem Inserting.insert_gap (owned : k.Owned) (inserting : Inserting k recCnt b s before n d)
    (short : ¬ (Record.of bytes).length % 2 ^ 32 > dataSize) (wide : dataSize < bytes.length + slotSize) :
    b.allocPage = (.error .unixErr,b) ∧ insertRecord b s (.of bytes) = .ok (.error .unixErr,s,b) ∨
    ∃ s' b' m, insertRecord b s (.of bytes) = .ok (.error .noSpace,s',b') ∧
      Inserting k recCnt b' s' (before ++ [(n,d)]) m [] := by
  have never : spaceLeft [] < bytes.length + slotSize := by rw [room_empty]; exact_mod_cast wide
  rw [inserting.insert_short short,inserting.put_full (lt_of_le_of_lt (spaceLeft_le d) never)]
  rcases linkNewPage_spec owned inserting with failed | ⟨b1,s1,m,linked,now,_⟩
  · refine .inl ⟨failed,?_⟩
    simp only [insertOnNewPage,linkNewPage,failed]
    rfl
  · obtain ⟨p,_,read,held,_⟩ := now.page
    refine .inr ⟨s1,b1,m,?_,now⟩
    rw [insertOnNewPage,linked,ok_bind]
    dsimp only
    rw [read,ok_bind,held.insert_full never]
    rfl

-- An error leaves the file as it was, but for the lengths between the two limits.
theorem insert_all_or_nothing_iff (owned : k.Owned) (inserting : Inserting k recCnt b s before n d)
    (allocates : ∃ m, b.allocPage.1 = .ok m)
    (rec : Record) (int : IsInt rec.length) (whole : 0 ≤ rec.length → rec.data.length = rec.length) :
    ∃ result s' b', insertRecord b s rec = .ok (result,s',b') ∧
      ((∀ status, result = .error status → Stored b'.view k.first (before ++ [(n,d)]) recCnt) ↔
        ¬ (dataSize - slotSize < rec.length ∧ rec.length ≤ dataSize)) := by
  have size : dataSize = 1004 := rfl
  have slot : slotSize = 4 := rfl
  by_cases long : rec.length % 2 ^ 32 > dataSize
  · refine ⟨_,s,b,insert_long long,iff_of_true (fun _ _ => inserting.stored) ?_⟩
    unfold IsInt at int
    omega
  obtain ⟨data,length⟩ := rec
  dsimp only at int whole long ⊢
  have natural : 0 ≤ length := by unfold IsInt at int; omega
  have bound : length < 2 ^ 31 := int.2
  have same := whole natural
  have of_bytes : (⟨data,length⟩ : Record) = .of data := by rw [Record.of,same]
  rw [of_bytes]
  rcases Nat.lt_or_ge dataSize (data.length + slotSize) with wide | fits
  · have checked : ¬ (Record.of data).length % 2 ^ 32 > dataSize := by
      rw [Record.of,same]
      exact long
    rcases inserting.insert_gap owned checked wide with ⟨failed,_⟩ | ⟨s',b',m,ran,linked⟩
    · obtain ⟨m,allocated⟩ := allocates
      rw [failed] at allocated
      cases allocated
    · refine ⟨_,s',b',ran,iff_of_false (fun kept => ?_) (by omega)⟩
      have one := (linked.stored.unique (kept .noSpace rfl)).1
      have longer := congrArg List.length one
      simp at longer
  · obtain ⟨rid,s',b',ran⟩ := Ready.insert_fits ⟨owned,inserting,allocates⟩ fits
    exact ⟨_,s',b',ran,iff_of_true (fun status error => by cases error) (by omega)⟩

-- The object on a heap file that has just been made.
theorem empty_inserting : ∃ (k : Pool.Books) (recCnt : Int) (b : Pool) (s : InsertFileScan) (before : Heap)
    (n : Int) (d : Slots),
    Ready k recCnt b s before n d := by
  obtain ⟨hdr,_,kept,stored⟩ := Writers.emptyFile_stored
  have owned : ({Pool.Books.unused with first := hdr} : Pool.Books).Owned := fun _ marked => False.elim marked
  obtain ⟨b,s,before,n,d,constructed,_,inserting,_⟩ := construct_spec owned kept stored ⟨Writers.rawScan.toHeapFile⟩
  refine ⟨_,0,b,s,before,n,d,owned,inserting,?_⟩
  have third : ((construct Writers.emptyFile ⟨Writers.rawScan.toHeapFile⟩).toOption.map fun r =>
    r.2.2.allocPage.1.toOption) =
      some (some 3) := by decide +kernel
  rw [constructed] at third
  cases allocated : b.allocPage.1 with
  | ok m => exact ⟨m,rfl⟩
  | error status =>
    have none_got : b.allocPage.1.toOption = some 3 := Option.some.inj third
    rw [allocated] at none_got
    cases none_got

theorem insert_all_or_nothing_iff_short : ∃ (k : Pool.Books) (recCnt : Int) (b : Pool) (s : InsertFileScan)
    (heap : Heap)
    (result : Except Status RID) (s' : InsertFileScan) (b' : Pool), insertRecord b s (.of [1,2,3]) =
    .ok (result,s',b') ∧
      ∀ status, result = .error status → Stored b'.view k.first heap recCnt := by
  obtain ⟨k,recCnt,b,s,before,n,d,owned,inserting,allocates⟩ := empty_inserting
  obtain ⟨result,s',b',ran,exact_⟩ := insert_all_or_nothing_iff owned inserting allocates (.of [1,2,3])
    (by decide) (fun _ => rfl)
  exact ⟨k,recCnt,b,s,before ++ [(n,d)],result,s',b',ran,exact_.mpr (by decide)⟩

-- A record of 1002 bytes is refused, and the file has a page more.
theorem insert_leaves_page : ¬ ∀ (k : Pool.Books) (recCnt : Int) (b : Pool) (s : InsertFileScan) (before : Heap)
    (n : Int) (d : Slots),
    k.Owned → Inserting k recCnt b s before n d → (∃ m, b.allocPage.1 = .ok m) → ∀ (rec : Record), IsInt rec.length →
      (0 ≤ rec.length → rec.data.length = rec.length) → ∀ status s' b', insertRecord b s rec =
      .ok (.error status,s',b') →
        Stored b'.view k.first (before ++ [(n,d)]) recCnt := by
  intro always
  obtain ⟨k,recCnt,b,s,before,n,d,owned,inserting,allocates⟩ := empty_inserting
  obtain ⟨data,size⟩ : ∃ data : List UInt8, data.length = 1002 := ⟨List.replicate 1002 7,List.length_replicate⟩
  have short : data.length ≤ dataSize := by rw [size]; decide
  have wide : dataSize < data.length + slotSize := by rw [size]; decide
  have kept := always k recCnt b s before n d owned inserting allocates (.of data)
    (show IsInt (data.length : Int) by rw [size]; decide)
    (fun _ => rfl)
  rcases inserting.insert_gap owned (short_record short) wide with ⟨failed,_⟩ | ⟨s',b',m,ran,linked⟩
  · obtain ⟨m,allocated⟩ := allocates
    rw [failed] at allocated
    cases allocated
  · have one := (linked.stored.unique (kept _ s' b' ran)).1
    have longer := congrArg List.length one
    simp at longer

end InsertFileScan

-- A call of createHeapFile that returned OK has made the file.
theorem Db.createHeapFile_made {db db' : Db} {name : Name} (made : db.createHeapFile name = .ok (.ok,db')) :
    ∃ hdr n, db'.Holds name (Db.empty hdr n).books (Db.empty hdr n).heap (Db.empty hdr n).recCnt := by
  by_cases named : name = []
  · simp only [Db.createHeapFile,Db.openFile,Db.createFile,if_pos named] at made
    cases made
  cases found : db.files name with
  | some b =>
    rw [Db.createHeapFile,Db.openFile_found named found] at made
    cases made
  | none =>
    obtain ⟨b,hdr,n,created,holds⟩ := Db.createHeapFile_missing named found
    rw [created] at made
    cases made
    exact ⟨hdr,n,holds⟩

namespace RelCatalog

-- if(status != OK) return status;
theorem succeeds {status : Status} {db1 db' : Db} {rest : Except Abort (Status × Db)}
    (ran : (if status ≠ .ok then return (status,db1) else rest) = .ok (.ok,db')) : status = .ok ∧
    rest = .ok (.ok,db') := by
  by_cases fine : status = .ok
  · rw [if_neg (not_not_intro fine)] at ran
    exact ⟨fine,ran⟩
  · rw [if_pos fine] at ran
    cases ran
    exact absurd rfl fine

theorem createRel_made {db db' : Db} {relation : Name} {attrs : List AttrInfo}
    (created : createRel db relation attrs = .ok (.ok,db')) :
    ∃ db1, Db.createHeapFile db1 relation = .ok (.ok,db') := by
  rw [createRel] at created
  obtain ⟨_,created⟩ := passes created
  obtain ⟨_,created⟩ := passes created
  obtain ⟨⟨status1,_,db1⟩,_,created⟩ := of_bind_ok created
  obtain ⟨absent,created⟩ := passes created
  obtain ⟨_,created⟩ := passes created fun early => by
    cases early
    exact absent rfl
  obtain ⟨_,created⟩ := passes created
  obtain ⟨_,created⟩ := passes created
  obtain ⟨⟨status2,db2⟩,_,created⟩ := of_bind_ok created
  obtain ⟨_,created⟩ := succeeds created
  obtain ⟨⟨status3,db3⟩,_,created⟩ := of_bind_ok created
  exact ⟨db3,(succeeds created).2⟩

-- Its file is empty, and insertRecord decides what addRow returns.
theorem created_insert {db db' : Db} {relation : Name} {attrs : List AttrInfo}
    (created : createRel db relation attrs = .ok (.ok,db')) :
    ∃ k b s n, Pool.Books.Owned k ∧ InsertFileScan.Inserting k 0 b s [] n [] ∧
      ∀ bytes result s' b', InsertFileScan.insertRecord b s (.of bytes) = .ok (result,s',b') →
        addRow db' relation bytes = .ok (statusOf result,db'.setPool relation (s'.destroy b')) := by
  obtain ⟨db1,made⟩ := createRel_made created
  obtain ⟨hdr,n,holds⟩ := Db.createHeapFile_made made
  obtain ⟨b,s,before,m,d,opened,split,inserting⟩ := Db.newInsertFileScan_spec holds
  have alone : before = [] ∧ d = [] := by
    rcases before with _ | ⟨p,rest⟩
    · cases split
      exact ⟨rfl,rfl⟩
    · have length := congrArg List.length split
      simp [Db.empty] at length
  obtain ⟨rfl,rfl⟩ := alone
  refine ⟨(Db.empty hdr n).books.opened,b,s,m,holds.2.1,inserting,fun bytes result s' b' ran => ?_⟩
  rw [addRow,opened,ok_bind]
  dsimp only
  rw [if_neg (not_not_intro rfl),Db.insertRecord_at ran,ok_bind]
  dsimp only
  rw [Db.deleteInsertFileScan_at]
  cases result <;> rfl

theorem created_takes {db db' : Db} {relation : Name} {attrs : List AttrInfo}
    (created : createRel db relation attrs = .ok (.ok,db'))
    {bytes : List UInt8} (fits : bytes.length + slotSize ≤ dataSize) : ∃ db'', addRow db' relation bytes =
    .ok (.ok,db'') := by
  obtain ⟨k,b,s,n,_,inserting,begun⟩ := created_insert created
  have room : bytes.length + slotSize ≤ spaceLeft [] := by rw [InsertFileScan.room_empty]; exact_mod_cast fits
  obtain ⟨rid,s',b',ran⟩ := inserting.put_room room
  rw [← inserting.insert_short (InsertFileScan.short_record (Nat.le_of_add_right_le fits))] at ran
  exact ⟨_,begun _ _ _ _ ran⟩

theorem created_refuses {db db' : Db} {relation : Name} {attrs : List AttrInfo}
    (created : createRel db relation attrs = .ok (.ok,db'))
    {bytes : List UInt8} (wide : dataSize < bytes.length + slotSize) : ¬ ∃ db'', addRow db' relation bytes =
    .ok (.ok,db'') := by
  obtain ⟨k,b,s,n,owned,inserting,begun⟩ := created_insert created
  have refused : ∃ status s' b', status ≠ .ok ∧ InsertFileScan.insertRecord b s (.of bytes) =
      .ok (.error status,s',b') := by
    by_cases long : (Record.of bytes).length % 2 ^ 32 > dataSize
    · exact ⟨.invalidRecLen,s,b,Status.noConfusion,InsertFileScan.insert_long long⟩
    · rcases inserting.insert_gap owned long wide with ⟨_,ran⟩ | ⟨s',b',_,ran,_⟩
      · exact ⟨.unixErr,s,b,Status.noConfusion,ran⟩
      · exact ⟨.noSpace,s',b',Status.noConfusion,ran⟩
  obtain ⟨status,s',b',bad,ran⟩ := refused
  rintro ⟨db'',added⟩
  rw [begun _ _ _ _ ran] at added
  cases added
  exact bad rfl

-- A relation that was created takes a tuple of its width where the width leaves room for the slot.
theorem created_usable_iff (db db' : Db) (relation : Name) (attrs : List AttrInfo)
    (created : createRel db relation attrs = .ok (.ok,db'))
    (bytes : List UInt8) (width : (bytes.length : Int) = (attrs.map AttrInfo.attrLen).sum) :
    (∃ db'', addRow db' relation bytes = .ok (.ok,db'')) ↔ (attrs.map AttrInfo.attrLen).sum + slotSize ≤ dataSize := by
  rw [← width]
  have size : dataSize = 1004 := rfl
  have slot : slotSize = 4 := rfl
  rcases Nat.lt_or_ge dataSize (bytes.length + slotSize) with wide | fits
  · exact iff_of_false (created_refuses created wide) (by omega)
  · exact iff_of_true (created_takes created fits) (by omega)

-- Two catalogs that list nothing yet.
def bareCatalogs : Db :=
  Db.holding (fun _ _ => ByteMemory.zero 1024) ⟨HeapFile.fresh 0 0,none,0,nullRid⟩ [(relCatName,[]),(attrCatName,[])]

theorem created_usable_iff_int : ∃ db', createRel bareCatalogs [82] [⟨[],[97],1,4,none⟩] = .ok (.ok,db') ∧
    ∃ db'', addRow db' [82] [1,0,0,0] = .ok (.ok,db'') := by
  obtain ⟨db',created⟩ : ∃ db', createRel bareCatalogs [82] [⟨[],[97],1,4,none⟩] = .ok (.ok,db') :=
    Db.exists_ok (by decide +kernel)
  exact ⟨db',created,(created_usable_iff _ db' _ _ created [1,0,0,0] rfl).mpr (by decide)⟩

-- Four strings of 255 bytes make a tuple of 1020.
theorem created_unusable : ¬ ∀ (db db' : Db) (relation : Name) (attrs : List AttrInfo), createRel db relation attrs =
    .ok (.ok,db') →
    ∀ bytes : List UInt8, (bytes.length : Int) = (attrs.map AttrInfo.attrLen).sum →
      ∃ db'', addRow db' relation bytes = .ok (.ok,db'') := by
  intro always
  have made : ∃ db', createRel bareCatalogs [82] [⟨[],[97],0,255,none⟩,⟨[],[98],0,255,none⟩,⟨[],[99],0,255,none⟩,
    ⟨[],[100],0,255,none⟩] =
      .ok (.ok,db') := Db.exists_ok (by decide +kernel)
  obtain ⟨db',created⟩ := made
  obtain ⟨bytes,size⟩ : ∃ bytes : List UInt8, bytes.length = 1020 := ⟨List.replicate 1020 7,List.length_replicate⟩
  exact created_refuses created (by rw [size]; decide) (always _ db' _ _ created bytes (by rw [size]; rfl))

end RelCatalog
end Minirel
