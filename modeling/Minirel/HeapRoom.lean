import Minirel.InsertLimits

namespace Minirel
open ByteMemory SlotDirectory Page Heap

namespace InsertFileScan

variable {k : Pool.Books} {recCnt : Int} {b : Pool} {s : InsertFileScan} {before : Heap} {n : Int} {d : Slots}
  {bytes : List UInt8}

-- A record is taken where a page could hold it, and this page can or the file may have one more.
theorem Inserting.takes_iff (owned : k.Owned) (inserting : Inserting k recCnt b s before n d) (bytes : List UInt8) :
    (∃ rid s' b', insertRecord b s (.of bytes) = .ok (.ok rid,s',b')) ↔
      bytes.length + slotSize ≤ dataSize ∧ (bytes.length + slotSize ≤ spaceLeft d ∨ b.file.length < 2 ^ 31) := by
  rcases Nat.lt_or_ge dataSize (bytes.length + slotSize) with wide | fits
  · refine iff_of_false ?_ fun both => absurd both.1 (Nat.not_le_of_lt wide)
    rintro ⟨rid,s',b',ran⟩
    by_cases long : (Record.of bytes).length % 2 ^ 32 > dataSize
    · rw [insert_long long] at ran
      cases ran
    · rcases inserting.insert_gap owned long wide with ⟨_,refused⟩ | ⟨_,_,_,refused,_⟩
      · rw [refused] at ran
        cases ran
      · rw [refused] at ran
        cases ran
  have short : ¬ (Record.of bytes).length % 2 ^ 32 > dataSize := short_record (Nat.le_of_add_right_le fits)
  rcases lt_or_ge (spaceLeft d) (bytes.length + slotSize) with full | room
  swap
  · apply iff_of_true
    · rw [inserting.insert_short short]
      exact inserting.put_room room
    · exact ⟨fits,.inl room⟩
  rcases inserting.kept.allocPage with ⟨huge,failed⟩ | ⟨m,page,b',allocated,longer,_,_,kept,_⟩
  · refine iff_of_false ?_ ?_
    · rintro ⟨rid,s',b',ran⟩
      rw [inserting.insert_short short,inserting.put_full full,insertOnNewPage,linkNewPage,failed] at ran
      cases ran
    · rintro ⟨_,room | grows⟩
      · exact absurd room (not_le_of_gt full)
      · rw [huge] at grows
        exact absurd grows (by decide)
  · apply iff_of_true
    · exact Ready.insert_fits ⟨owned,inserting,m,by rw [allocated]⟩ fits
    · have bound := kept.counted.bound
      rw [longer] at bound
      exact ⟨fits,.inr bound⟩

end InsertFileScan

-- The room on the last page.
def Heap.lastSpace (heap : Heap) : Int := (heap.getLast?.map fun p => spaceLeft p.2).getD 0

@[simp] theorem Heap.lastSpace_concat (before : Heap) (n : Int) (d : Slots) :
    Heap.lastSpace (before ++ [(n,d)]) = spaceLeft d := by
  simp [Heap.lastSpace]

-- The heap file would take a record of that size.
def Db.Takes (db : Db) (name : Name) (heap : Heap) (size : Nat) : Prop :=
  size + slotSize ≤ dataSize ∧ (size + slotSize ≤ lastSpace heap ∨ ∃ b, db.files name = some b ∧ b.file.length < 2 ^ 31)

-- A file that gained nothing has the records it had.
theorem Gains.unchanged {heap heap' : Heap} (gains : Gains heap heap' []) : records heap' = records heap := by
  rw [← gains.kept,eq_comm]
  apply List.filter_eq_self.mpr
  intro e member
  by_contra new
  have gained : e ∈ (records heap').filter fun e => e.1 ∉ (records heap).map Prod.fst := by
    apply List.mem_filter.mpr
    exact ⟨member,by simpa using new⟩
  rw [List.map_eq_nil_iff.mp gains.gained] at gained
  cases gained

theorem Gains.perm {heap heap' : Heap} {new : List (List UInt8)} (gains : Gains heap heap' new) :
    ((records heap').map Prod.snd).Perm ((records heap).map Prod.snd ++ new) := by
  have apart := (List.filter_append_perm (fun e : Entry => e.1 ∈ (records heap).map Prod.fst) (records heap')).symm.map
    Prod.snd
  have others : ((records heap').filter fun e => !decide (e.1 ∈ (records heap).map Prod.fst)).map Prod.snd = new := by
    rw [← gains.gained]
    congr 1
    apply List.filter_congr
    simp
  rw [List.map_append,gains.kept,others] at apart
  exact apart

-- What an insert that was asked for comes to: one more record, or an error and the same records.
inductive Filled (heap : Heap) (bytes : List UInt8) (takes : Prop) : Status → Heap → Prop where
  | gained {heap' : Heap} (fits : takes) (gains : Gains heap heap' [bytes]) : Filled heap bytes takes .ok heap'
  | refused {heap' : Heap} {status : Status} (failed : status ≠ .ok) (full : ¬ takes)
      (same : records heap' = records heap) :
      Filled heap bytes takes status heap'

namespace Db

variable {db : Db} {shelf : Shelf} {name : Name} {file : HeldFile} {old : Option HeldFile} {b : Pool}
  {s : InsertFileScan} {before : Heap}
  {n : Int} {d : Slots} {recCnt : Int} {bytes : List UInt8}

-- insertRecord and the destructor.
theorem Stands.fill (stands : db.Stands (Function.update shelf name old)) (named : name ≠ []) (owned : file.books.Owned)
    (inserting : InsertFileScan.Inserting file.books.opened recCnt b s before n d)
    (split : file.heap = before ++ [(n,d)])
    (positive : bytes ≠ []) (int : bytes.length < 2 ^ 31) :
    ∃ result s' b1 b2 file', (db.setPool name b).insertRecord name s (.of bytes) = .ok (result,s',db.setPool name b1) ∧
      (db.setPool name b1).deleteInsertFileScan name s' = .ok (db.setPool name b2) ∧
      (db.setPool name b2).Stands (Function.update shelf name (some file')) ∧
      Filled file.heap bytes
        (bytes.length + slotSize ≤ dataSize ∧ (bytes.length + slotSize ≤ lastSpace file.heap ∨ b.file.length < 2 ^ 31))
        (statusOf result) file'.heap := by
  have owned' : file.books.opened.Owned := owned
  obtain ⟨result,s',b1,recCnt',before',n',d',ran,inserting',told⟩ :=
    InsertFileScan.insertRecord_appends owned' positive int inserting (Appending.start split)
  obtain ⟨b2,deleted,kept,view⟩ := db.deleteInsert_spec name owned inserting'
  have stands' := stands.put (b:=b2) ⟨file.books,before' ++ [(n',d')],recCnt'⟩
    (holds_setPool named owned kept (by rw [view]; exact inserting'.stored))
  rw [Function.update_idem] at stands'
  have takes := inserting.takes_iff owned' bytes
  rw [ran,← lastSpace_concat before n d,← split] at takes
  refine ⟨result,s',b1,b2,_,insertRecord_at ran,deleted,stands',?_⟩
  rcases told with ⟨rid,rfl,appending⟩ | ⟨status,failed,rfl,appending⟩
  · exact .gained (takes.mp ⟨rid,s',b1,rfl⟩) appending.gains
  · refine .refused failed (fun fits => ?_) appending.gains.unchanged
    obtain ⟨rid,_,_,same⟩ := takes.mpr fits
    cases same

-- What a file has gained can be read back from it.
theorem Stands.gained_unique {shelf' : Shelf} {file1 file2 : HeldFile} {heap : Heap} {one two : List UInt8}
    (stands : db.Stands shelf)
    (present : shelf name = some file1) (stands' : db.Stands shelf') (present' : shelf' name = some file2)
    (gains : Gains heap file1.heap [one]) (gains' : Gains heap file2.heap [two]) : one = two := by
  have same := (contents_spec stands present).symm.trans (contents_spec stands' present')
  have both := gains.perm
  rw [Except.ok.inj same] at both
  have single := (List.perm_append_left_iff _).mp (both.symm.trans gains'.perm)
  exact List.singleton_perm_singleton.mp single

theorem Takes.iff {b0 : Pool} (found : db.files name = some b0) (same : b.file.length = b0.file.length)
    (heap : Heap) (size : Nat) :
    db.Takes name heap size ↔ size + slotSize ≤ dataSize ∧
      (size + slotSize ≤ lastSpace heap ∨ b.file.length < 2 ^ 31) := by
  have grows : (∃ b, db.files name = some b ∧ b.file.length < 2 ^ 31) ↔ b.file.length < 2 ^ 31 := by
    rw [found,same]
    simp
  rw [Takes,grows]

theorem Stands.addRow_fill (stands : db.Stands shelf) (present : shelf name = some file) (positive : bytes ≠ [])
    (int : bytes.length < 2 ^ 31) :
    ∃ status b' file', addRow db name bytes = .ok (status,db.setPool name b') ∧
      (db.setPool name b').Stands (Function.update shelf name (some file')) ∧
      Filled file.heap bytes (db.Takes name file.heap bytes.length) status file'.heap := by
  have holds := stands name file present
  obtain ⟨b0,found,kept0,_⟩ := holds.2.2
  obtain ⟨b,s,before,n,d,made,split,inserting,view⟩ := newInsertFileScan_view holds found
  have held : db.Stands (Function.update shelf name (some file)) := by rwa [← present,Function.update_eq_self]
  obtain ⟨result,s',b1,b2,file',ran,deleted,stands',filled⟩ := held.fill holds.1 holds.2.1 inserting split positive int
  refine ⟨statusOf result,b2,file',?_,stands',?_⟩
  · rw [addRow,made,ok_bind]
    dsimp only
    rw [if_neg (not_not_intro rfl),ran,ok_bind]
    dsimp only
    rw [deleted]
    cases result <;> rfl
  · rw [Takes.iff found (kept0.length_of_view inserting.kept view)]
    exact filled

end Db
end Minirel
