import Minirel.PageGrants

namespace Minirel
open Consistent

namespace File

-- The checks of disposePage and the system calls it needs.
def Disposable (io : Io) (file : UnixFile) (pageNo : Int) : Prop :=
  1 ≤ pageNo ∧ io.read 0 = false ∧ file ≠ [] ∧ DBPage.firstPage (header file) ≠ pageNo ∧
    pageNo < DBPage.numPages (header file) ∧
    io.read pageNo = false ∧ (at? file pageNo).isSome ∧ io.write pageNo = false ∧ io.write 0 = false

theorem intread_failed {io : Io} {file : UnixFile} {pageNo : Int} {status : Status}
    (failed : intread io file pageNo = .error status) :
    status = .unixErr := by
  unfold intread at failed
  split at failed
  · cases failed; rfl
  · split at failed
    · cases failed
    · cases failed; rfl

theorem intread_iff {io : Io} {file : UnixFile} {pageNo : Int} {page : Page} :
    intread io file pageNo = .ok page ↔ io.read pageNo = false ∧ at? file pageNo = some page := by
  unfold intread
  cases io.read pageNo with
  | true => simp
  | false => cases at? file pageNo <;> simp

theorem intwrite_iff {io : Io} {file : UnixFile} {pageNo : Int} {page : Page} :
    (intwrite io file pageNo page).1 = .ok ↔ io.write pageNo = false ∧ 0 ≤ pageNo := by
  unfold intwrite
  by_cases stopped : io.write pageNo = true ∨ pageNo < 0
  · rw [if_pos stopped]
    refine ⟨fun none => (by cases none),fun goes => ?_⟩
    rcases stopped with broken | negative
    · cases goes.1.symm.trans broken
    · omega
  · rw [if_neg stopped]
    obtain ⟨works,low⟩ := not_or.mp stopped
    exact ⟨fun _ => ⟨Bool.eq_false_iff.mpr works,by omega⟩,fun _ => rfl⟩

theorem intwrite_status (io : Io) (file : UnixFile) (pageNo : Int) (page : Page) :
    (intwrite io file pageNo page).1 = .ok ∨ (intwrite io file pageNo page).1 = .unixErr := by
  unfold intwrite
  split
  · exact .inr rfl
  · exact .inl rfl

theorem disposePage_iff {io : Io} {file : UnixFile} {pageNo : Int} : (disposePage io file pageNo).1 = .ok ↔
    Disposable io file pageNo := by
  unfold disposePage Disposable
  by_cases low : pageNo < 1
  · rw [if_pos low]
    exact ⟨fun none => (by cases none),fun goes => by have := goes.1; omega⟩
  rw [if_neg low]
  cases first : intread io file 0 with
  | error status =>
    refine ⟨fun same => ?_,fun goes => ?_⟩
    · cases same.symm.trans (intread_failed first)
    · rw [intread_header (List.length_pos_iff.mpr goes.2.2.1),goes.2.1,if_neg Bool.false_ne_true] at first
      cases first
  | ok header' =>
    obtain ⟨works,found⟩ := intread_iff.mp first
    have some_page : file ≠ [] := by
      rintro rfl
      cases found
    have same : header file = header' := by rw [header,found,Option.getD_some]
    rw [same]
    dsimp only
    by_cases refused : DBPage.firstPage header' = pageNo ∨ pageNo ≥ DBPage.numPages header'
    · rw [if_pos refused]
      refine ⟨fun none => (by cases none),fun goes => ?_⟩
      obtain ⟨_,_,_,other,below,_⟩ := goes
      rcases refused with first | past
      · exact absurd first other
      · omega
    · rw [if_neg refused]
      obtain ⟨other,below⟩ := not_or.mp refused
      cases second : intread io file pageNo with
      | error status =>
        refine ⟨fun same => ?_,fun goes => ?_⟩
        · cases same.symm.trans (intread_failed second)
        · obtain ⟨_,_,_,_,_,reads,there,_⟩ := goes
          obtain ⟨page,here⟩ := Option.isSome_iff_exists.mp there
          cases second.symm.trans (intread_iff.mpr ⟨reads,here⟩)
      | ok page =>
        obtain ⟨reads,here⟩ := intread_iff.mp second
        dsimp only
        have one : (intwrite io file pageNo (DBPage.setNextFree (ByteMemory.zero 1024) (DBPage.nextFree header'))).1 =
          .ok ↔
            io.write pageNo = false ∧ 0 ≤ pageNo := intwrite_iff
        cases written : intwrite io file pageNo (DBPage.setNextFree (ByteMemory.zero 1024)
          (DBPage.nextFree header')) with
        | mk status file' =>
          rw [written] at one
          have known := intwrite_status io file pageNo (DBPage.setNextFree (ByteMemory.zero 1024)
            (DBPage.nextFree header'))
          rw [written] at known
          rcases known with rfl | rfl
          · dsimp only
            have writes := (one.mp rfl).1
            rw [intwrite_iff]
            refine ⟨fun last => ⟨by omega,works,some_page,other,by omega,reads,by rw [here]; rfl,writes,last.1⟩,
              fun goes => ?_⟩
            obtain ⟨_,_,_,_,_,_,_,_,last⟩ := goes
            exact ⟨last,Int.le_refl _⟩
          · refine ⟨fun none => (by cases none),fun goes => ?_⟩
            obtain ⟨_,_,_,_,_,_,_,writes,_⟩ := goes
            cases one.mpr ⟨writes,by omega⟩

end File
theorem BufHashTbl.remove_changes {hash : Hash} {t : BufHashTbl} {file : FileId} {pageNo : Int} {i : Nat}
    (present : t.find hash file pageNo = some i) : (t.remove hash file pageNo).2 ≠ t := by
  intro same
  unfold find at present
  obtain ⟨ht,removed⟩ := BucketTable.remove_present present
  rw [remove,removed] at same
  have chain : ht (hash t.htSize (file,pageNo)) = t.ht (hash t.htSize (file,pageNo)) :=
    congrFun (congrArg BufHashTbl.ht same) _
  rw [BucketTable.remove,present] at removed
  cases removed
  dsimp only at chain
  rw [if_pos rfl] at chain
  have shorter := BucketTable.length_unlink (show BucketTable.find (t.ht (hash t.htSize (file,pageNo))) (file,pageNo) =
    some i from present)
  rw [chain] at shorter
  omega

theorem BufHashTbl.remove_nothing {hash : Hash} {t : BufHashTbl} {file : FileId} {pageNo : Int}
    (missing : t.find hash file pageNo = none) : (t.remove hash file pageNo).2 = t := by
  unfold find at missing
  rw [remove,BucketTable.remove_missing missing]

-- The table, the frame descriptors and the frames' contents are what they were.
structure SamePool (m m' : BufMgr) : Prop where
  hashTable : m'.hashTable = m.hashTable
  bufTable : m'.bufTable = m.bufTable
  bufPool : m'.bufPool = m.bufPool

namespace Stage6

theorem disposePage_missing (io : Faults) {s : Storage} {file : FileId} {pageNo : Int}
    (missing : s.mgr.hashTable.find hash file pageNo = none) : (disposePage io s file pageNo).2.mgr = s.mgr := by
  unfold disposePage
  rw [BufHashTbl.lookup_error missing]
  dsimp only
  rw [BufHashTbl.remove_nothing missing]
  rfl

theorem disposePage_forgets (io : Faults) {s : Storage} {file : FileId} {pageNo : Int} {i : Nat}
    (present : s.mgr.hashTable.find hash file pageNo = some i) : (disposePage io s file pageNo).2.mgr.hashTable ≠
    s.mgr.hashTable := by
  unfold disposePage
  rw [BufHashTbl.lookup_ok present]
  exact BufHashTbl.remove_changes present

theorem rejected_disposePage_changes_nothing_iff (io : Faults) (s : Storage) (file : FileId) (pageNo : Int) :
    ((disposePage io s file pageNo).1 ≠ .ok → SamePool s.mgr (disposePage io s file pageNo).2.mgr) ↔
      s.mgr.hashTable.find hash file pageNo = none ∨ File.Disposable (io file) (s.disk file) pageNo := by
  have accepted : (disposePage io s file pageNo).1 = .ok ↔ File.Disposable (io file) (s.disk file) pageNo :=
    File.disposePage_iff
  rw [← accepted]
  cases present : s.mgr.hashTable.find hash file pageNo with
  | none =>
    have same := disposePage_missing io present
    exact ⟨fun _ => .inl rfl,fun _ _ => ⟨by rw [same],by rw [same],by rw [same]⟩⟩
  | some i =>
    refine ⟨fun kept => .inr ?_,fun either rejected => ?_⟩
    · by_contra rejected
      exact disposePage_forgets io present (kept rejected).hashTable
    · rcases either with none | ok
      · cases none
      · exact absurd ok rejected

-- The first page of the file cannot be disposed of; its frame, pinned and not yet written, is cleared all the same.
theorem rejected_disposePage_clears_frame : ¬ ∀ (io : Faults) (s : Storage) (file : FileId) (pageNo : Int),
    (disposePage io s file pageNo).1 ≠ .ok → SamePool s.mgr (disposePage io s file pageNo).2.mgr := by
  intro kept
  let works : Faults := fun _ => .working
  let s := (Storage.start 1 fun _ => File.create).calls release [(works,.allocPage 0)]
  have present : s.mgr.hashTable.find hash 0 1 = some 0 := by decide +kernel
  exact disposePage_forgets works present (kept works s 0 1 (by decide +kernel)).hashTable

-- A pool whose table and frames say the same.
structure Agreed (m : BufMgr) : Prop where
  hand : m.clockHand < m.numBufs
  sound : BucketTable.Sound m.hashTable.ht
  index : ∀ file pageNo i, m.hashTable.find hash file pageNo = some i ↔ i < m.numBufs ∧ (m.bufTable i).Holds file pageNo
  named : ∀ i, i < m.numBufs → (m.bufTable i).valid = true → ∃ file, (m.bufTable i).file = some file
  clean : ∀ i, i < m.numBufs → (m.bufTable i).valid = false → (m.bufTable i).dirty = false

-- The victim, at which the hand has stopped, is found in its frame with its contents, also by a later readPage.
structure KeepsVictim (s s' : Storage) : Prop where
  found : ∀ file pageNo, (s.mgr.bufTable s'.mgr.clockHand).Holds file pageNo →
    s'.mgr.hashTable.lookup hash file pageNo = .ok s'.mgr.clockHand
  contents : s'.mgr.bufPool s'.mgr.clockHand = s.mgr.bufPool s'.mgr.clockHand
  later : ∀ io file pageNo, (s.mgr.bufTable s'.mgr.clockHand).Holds file pageNo →
    ∃ t, readPage io s' file pageNo = (.ok s'.mgr.clockHand,t) ∧
      t.mgr.bufPool s'.mgr.clockHand = s.mgr.bufPool s'.mgr.clockHand

-- The page whose write-back failed is in no entry of the table.
theorem failed_eviction_unlists {io : Faults} {s s' : Storage} {status : Status} (agreed : Agreed s.mgr)
    (failed : allocBuf io s = (.error status,s')) (unwritten : status ≠ .bufferExceeded) :
    ∃ file pageNo, (s.mgr.bufTable s'.mgr.clockHand).Holds file pageNo ∧
      (s.mgr.bufTable s'.mgr.clockHand).dirty = true ∧
      s'.mgr.hashTable.lookup hash file pageNo = .error .hashNotFound := by
  obtain ⟨ticked,found,stopped⟩ := sweep_spec (2 * s.mgr.numBufs) s.mgr agreed.hand
  unfold allocBuf at failed
  generalize sweep (2 * s.mgr.numBufs) s.mgr = swept at ticked found stopped failed
  obtain ⟨m,left,hit⟩ := swept
  dsimp only at ticked found stopped failed
  have inside : m.clockHand < s.mgr.numBufs := ticked.hand
  obtain ⟨b,same⟩ := ticked.descs m.clockHand
  by_cases ended : ¬ hit = true ∧ left = 0
  · rw [if_pos ended] at failed
    cases failed
    exact absurd rfl unwritten
  rw [if_neg ended] at failed
  cases hit with
  | false =>
    have invalid := stopped rfl fun none => ended ⟨Bool.false_ne_true,none⟩
    rw [same] at invalid
    have clean := agreed.clean _ inside invalid
    rw [if_neg Bool.false_ne_true,same,if_neg (by rw [clean]; decide)] at failed
    cases failed
  | true =>
    rw [if_pos rfl] at failed
    have valid := (found rfl).1
    rw [same] at valid
    obtain ⟨file,named⟩ := agreed.named _ inside valid
    have gone := (BufHashTbl.remove_spec hash file (s.mgr.bufTable m.clockHand).pageNo agreed.sound).2 file
      (s.mgr.bufTable m.clockHand).pageNo
    rw [if_pos rfl] at gone
    have dropped : (m.dropEntry hash m.clockHand).clockHand = m.clockHand ∧
      (m.dropEntry hash m.clockHand).bufTable = m.bufTable ∧
        (m.dropEntry hash m.clockHand).hashTable =
        (s.mgr.hashTable.remove hash file (s.mgr.bufTable m.clockHand).pageNo).2 := by
      rw [BufMgr.dropEntry,same,← ticked.hashTable]
      dsimp only
      rw [named]
      exact ⟨rfl,rfl,rfl⟩
    obtain ⟨hand,descs,table⟩ := dropped
    generalize m.dropEntry hash m.clockHand = k at hand descs table failed
    rw [hand,descs,same] at failed
    split at failed
    · rename_i dirty
      have kept := Storage.writeFrame_mgr io ⟨k.countWrite,s.disk⟩ m.clockHand
      cases written : Storage.writeFrame io ⟨k.countWrite,s.disk⟩ m.clockHand with
      | mk outcome t =>
        rw [written] at failed kept
        dsimp only at failed kept
        split at failed
        · cases failed
          rw [kept]
          change ∃ file pageNo, (s.mgr.bufTable k.clockHand).Holds file pageNo ∧
            (s.mgr.bufTable k.clockHand).dirty = true ∧
            k.hashTable.lookup hash file pageNo = .error .hashNotFound
          rw [hand,table]
          exact ⟨file,_,⟨valid,named,rfl⟩,dirty,BufHashTbl.lookup_error gone⟩
        · cases failed
    · cases failed

theorem failed_eviction_keeps_nothing (io : Faults) (s s' : Storage) (status : Status) (agreed : Agreed s.mgr)
    (failed : allocBuf io s = (.error status,s')) (unwritten : status ≠ .bufferExceeded) : ¬ KeepsVictim s s' := by
  obtain ⟨file,pageNo,holds,_,missing⟩ := failed_eviction_unlists agreed failed unwritten
  intro keeps
  cases missing.symm.trans (keeps.found file pageNo holds)

-- A pool of one frame, whose page has been changed and given back, and a disk that does not take it.
def unsaved : Storage :=
  (Storage.start 1 fun _ => File.create).calls release
    [(fun _ => .working,.allocPage 0),(fun _ => .working,.unPinPage 0 1 true)]

def unwritable : Faults := fun _ => ⟨fun _ => false,fun pageNo => pageNo = 1⟩

theorem unsaved_agreed : Agreed unsaved.mgr := by
  have inv : Listed hash unsaved.mgr := calls_listed (fun io s c before => call_listed io before c) _
    (.init (by decide))
  have size : unsaved.mgr.numBufs = 1 := by decide +kernel
  have only : ∀ i, i < unsaved.mgr.numBufs → i = 0 := fun i inside => by omega
  have frame : (unsaved.mgr.bufTable 0).Holds 0 1 := ⟨by decide +kernel,by decide +kernel,by decide +kernel⟩
  refine ⟨inv.hand,inv.sound,fun file pageNo i => ⟨inv.listed file pageNo i,?_⟩,?_,?_⟩
  · rintro ⟨inside,holds⟩
    obtain rfl := only i inside
    obtain rfl : 0 = file := Option.some.inj (frame.2.1.symm.trans holds.2.1)
    obtain rfl : 1 = pageNo := frame.2.2.symm.trans holds.2.2
    decide +kernel
  · intro i inside _
    obtain rfl := only i inside
    exact ⟨0,frame.2.1⟩
  · intro i inside invalid
    obtain rfl := only i inside
    cases frame.1.symm.trans invalid

theorem unsaved_unwritten : allocBuf unwritable unsaved = (.error .unixErr,(allocBuf unwritable unsaved).2) :=
  Prod.ext (by decide +kernel) rfl

theorem failed_eviction_keeps_nothing_one_frame : ¬ KeepsVictim unsaved (allocBuf unwritable unsaved).2 :=
  failed_eviction_keeps_nothing unwritable unsaved _ .unixErr unsaved_agreed unsaved_unwritten (by decide)

theorem unsaved_page_unlisted : ¬ ∀ (io : Faults) (s s' : Storage) (status : Status), Agreed s.mgr →
    allocBuf io s = (.error status,s') → status ≠ .bufferExceeded → KeepsVictim s s' := by
  intro keeps
  obtain ⟨file,pageNo,holds,_,missing⟩ := failed_eviction_unlists unsaved_agreed unsaved_unwritten (by decide)
  have kept := keeps unwritable unsaved _ .unixErr unsaved_agreed unsaved_unwritten (by decide)
  cases missing.symm.trans (kept.found file pageNo holds)

end Stage6
end Minirel
