import Minirel.ClockReplacement

namespace Minirel
open ByteMemory Consistent

namespace File

-- What of a file the header page says: its page count, the head of its free list, its first page.
structure SameShape (file file' : UnixFile) : Prop where
  numPages : DBPage.numPages (header file') = DBPage.numPages (header file)
  nextFree : DBPage.nextFree (header file') = DBPage.nextFree (header file)
  firstPage : DBPage.firstPage (header file') = DBPage.firstPage (header file)

-- The page number allocatePage has next: the head of the free list, or the number of pages.
def next (file : UnixFile) : Int :=
  if DBPage.nextFree (header file) = -1 then DBPage.numPages (header file) else DBPage.nextFree (header file)

-- The system calls of allocatePage that cannot be done.
def Refuses (io : Io) (file : UnixFile) : Prop :=
  io.read 0 = true ∨ file = [] ∨ io.write 0 = true ∨
    if DBPage.nextFree (header file) = -1 then io.write (next file) = true ∨ next file < 0
    else io.read (next file) = true ∨ at? file (next file) = none

-- The head of the free list links to itself, as a page does that was disposed of twice.
def Looped (file : UnixFile) : Prop :=
  DBPage.nextFree (header file) ≠ -1 ∧ (at? file (next file)).map DBPage.nextFree = some (next file)

theorem SameShape.of_header {file file' : UnixFile} (same : header file' = header file) : SameShape file file' :=
  ⟨by rw [same],by rw [same],by rw [same]⟩

theorem nextFree_setNextFree (page : Page) (v : Int) :
    DBPage.nextFree (DBPage.setNextFree page v) = Int.bmod v (256 ^ 4) :=
  word_setWord (by omega) (by omega)

-- A grown file: one page more than it had, in 32-bit arithmetic.
structure Grown (file file' : UnixFile) : Prop where
  numPages : DBPage.numPages (header file') = Int.bmod (DBPage.numPages (header file) + 1) (256 ^ 4)
  nextFree : DBPage.nextFree (header file') = DBPage.nextFree (header file)

theorem Grown.other_shape {file file' : UnixFile} (grown : Grown file file') : ¬ SameShape file file' := by
  intro same
  have count := same.numPages.symm.trans grown.numPages
  rw [Int.bmod_def] at count
  split at count <;> omega

theorem extend_outcome (io : Io) (file : UnixFile) :
    (io.write (DBPage.numPages (header file)) = true ∨ DBPage.numPages (header file) < 0 ∨ io.write 0 = true) ∧
      (∃ status, (extend io file (header file)).1 = .error status) ∧
      header (extend io file (header file)).2 = header file ∨
    ¬ (io.write (DBPage.numPages (header file)) = true ∨ DBPage.numPages (header file) < 0 ∨ io.write 0 = true) ∧
      (extend io file (header file)).1 = .ok (DBPage.numPages (header file)) ∧
      Grown file (extend io file (header file)).2 := by
  unfold extend
  dsimp only
  by_cases stopped : io.write (DBPage.numPages (header file)) = true ∨ DBPage.numPages (header file) < 0
  · left
    rw [intwrite,if_pos stopped]
    exact ⟨stopped.imp_right .inl,⟨_,rfl⟩,rfl⟩
  · rw [intwrite,if_neg stopped]
    dsimp only
    by_cases broken : io.write 0 = true
    · left
      rw [intwrite,if_pos (.inl broken)]
      refine ⟨.inr (.inr broken),⟨_,rfl⟩,?_⟩
      -- The new page is not the header page: that one cannot be written.
      have other : ¬ DBPage.numPages (header file) = 0 := fun zero => stopped (.inl (by rw [zero]; exact broken))
      have kept := header_writePage .working file (DBPage.numPages (header file)) (zero 1024)
      rw [writePage,if_neg (by omega),intwrite,if_neg (by
        rintro (none | negative)
        · cases none
        · exact stopped (.inr negative))] at kept
      exact kept
    · right
      rw [intwrite_header _ (Bool.eq_false_iff.mpr broken)]
      refine ⟨fun any => ?_,rfl,?_,?_⟩
      · rcases any with first | second | third
        · exact stopped (.inl first)
        · exact stopped (.inr second)
        · exact broken third
      all_goals
        dsimp only
        rw [header_overwrite]
        split
      · exact (word_setWord_apart (by omega)).trans (word_setWord (by omega) (by omega))
      · exact word_setWord (by omega) (by omega)
      · exact (word_setWord_apart (by omega)).trans (word_setWord_apart (by omega))
      · exact word_setWord_apart (by omega)

theorem takeFree_outcome (io : Io) (file : UnixFile) :
    (io.read (DBPage.nextFree (header file)) = true ∨ at? file (DBPage.nextFree (header file)) = none ∨
      io.write 0 = true) ∧
      (∃ status, (takeFree io file (header file)).1 = .error status) ∧ (takeFree io file (header file)).2 = file ∨
    ¬ (io.read (DBPage.nextFree (header file)) = true ∨ at? file (DBPage.nextFree (header file)) = none ∨
      io.write 0 = true) ∧
      ∃ page, at? file (DBPage.nextFree (header file)) = some page ∧
        (takeFree io file (header file)).1 = .ok (DBPage.nextFree (header file)) ∧
        header (takeFree io file (header file)).2 = DBPage.setNextFree (header file) (DBPage.nextFree page) := by
  unfold takeFree intread
  dsimp only
  by_cases unread : io.read (DBPage.nextFree (header file)) = true
  · rw [if_pos unread]
    exact .inl ⟨.inl unread,⟨_,rfl⟩,rfl⟩
  · rw [if_neg unread]
    cases found : at? file (DBPage.nextFree (header file)) with
    | none => exact .inl ⟨.inr (.inl rfl),⟨_,rfl⟩,rfl⟩
    | some page =>
      dsimp only
      by_cases broken : io.write 0 = true
      · rw [intwrite,if_pos (.inl broken)]
        exact .inl ⟨.inr (.inr broken),⟨_,rfl⟩,rfl⟩
      · rw [intwrite_header _ (Bool.eq_false_iff.mpr broken)]
        refine .inr ⟨?_,page,rfl,rfl,header_overwrite _⟩
        rintro (first | none | third)
        · exact unread first
        · cases none
        · exact broken third

-- allocatePage does all of what it is for or leaves the header page as it was.
theorem allocatePage_outcome (io : Io) (file : UnixFile) :
    Refuses io file ∧ (∃ status, (allocatePage io file).1 = .error status) ∧
      header (allocatePage io file).2 = header file ∨
    ¬ Refuses io file ∧ (allocatePage io file).1 = .ok (next file) ∧
      (SameShape file (allocatePage io file).2 ↔ Looped file) := by
  by_cases gone : file = []
  · subst gone
    refine .inl ⟨.inr (.inl rfl),?_⟩
    unfold allocatePage intread
    split
    · exact ⟨⟨_,rfl⟩,rfl⟩
    · rename_i read
      split at read
      · cases read
      · cases read
  have present : 0 < file.length := List.length_pos_iff.mpr gone
  unfold allocatePage
  rw [intread_header present]
  by_cases unread : io.read 0 = true
  · rw [if_pos unread]
    exact .inl ⟨.inl unread,⟨_,rfl⟩,rfl⟩
  · rw [if_neg unread]
    dsimp only
    unfold Refuses Looped next
    by_cases none : DBPage.nextFree (header file) = -1
    · rw [if_neg (not_not.mpr none),if_pos none,if_pos none]
      rcases extend_outcome io file with ⟨stopped,failed,kept⟩ | ⟨goes,number,grown⟩
      · refine .inl ⟨.inr (.inr ?_),failed,kept⟩
        rcases stopped with first | second | third
        · exact .inr (.inl first)
        · exact .inr (.inr second)
        · exact .inl third
      · refine .inr ⟨?_,number,fun same => absurd same grown.other_shape,fun looped => absurd none looped.1⟩
        rintro (first | second | third | fourth | fifth)
        · exact unread first
        · exact gone second
        · exact goes (.inr (.inr third))
        · exact goes (.inl fourth)
        · exact goes (.inr (.inl fifth))
    · rw [if_pos none,if_neg none,if_neg none]
      rcases takeFree_outcome io file with ⟨stopped,failed,kept⟩ | ⟨goes,page,found,number,kept⟩
      · refine .inl ⟨.inr (.inr ?_),failed,by rw [kept]⟩
        rcases stopped with first | second | third
        · exact .inr (.inl first)
        · exact .inr (.inr second)
        · exact .inl third
      · have link : DBPage.nextFree (header (takeFree io file (header file)).2) = DBPage.nextFree page := by
          rw [kept,nextFree_setNextFree]
          exact word_bmod page 4 0
        refine .inr ⟨?_,number,fun same => ⟨none,?_⟩,fun looped => ⟨?_,?_,?_⟩⟩
        · rintro (first | second | third | fourth | fifth)
          · exact unread first
          · exact gone second
          · exact goes (.inr (.inr third))
          · exact goes (.inl fourth)
          · exact goes (.inr (.inl fifth))
        · rw [found,Option.map_some,← link,same.nextFree]
        · rw [kept]; exact word_setWord_apart (by omega)
        · have loop := looped.2
          rw [found,Option.map_some] at loop
          rw [link,Option.some.inj loop]
        · rw [kept]; exact word_setWord_apart (by omega)

end File
-- The hash table once frame i is free.
def BufMgr.tableWithout (hash : Hash) (m : BufMgr) (i : Nat) : BufHashTbl :=
  if (m.bufTable i).valid then (m.dropEntry hash i).hashTable else m.hashTable

theorem BufMgr.tableWithout_same {hash : Hash} {m m' : BufMgr} (ticked : Ticked m m') (i : Nat) :
    m'.tableWithout hash i = m.tableWithout hash i := by
  obtain ⟨b,same⟩ := ticked.descs i
  unfold tableWithout dropEntry
  rw [same,ticked.hashTable]
  dsimp only
  cases (m.bufTable i).file with
  | none => exact if_congr Iff.rfl ticked.hashTable rfl
  | some file => rfl

theorem BufHashTbl.insert_missing {hash : Hash} {t : BufHashTbl} {file : FileId} {pageNo : Int} (i : Nat)
    (missing : t.find hash file pageNo = none) : ∃ t', t.insert hash file pageNo i = (.ok,t') := by
  obtain ⟨ht,inserted⟩ := BucketTable.insert_fresh i (show BucketTable.lookup (hash t.htSize) t.ht (file,pageNo) =
    none from missing)
  exact ⟨{t with ht := ht},by rw [insert,inserted]⟩

-- What a release's allocBuf does, as far as allocPage goes by it.
structure Granting (hash : Hash) (allocBuf : Faults → Storage → Except Status Nat × Storage)
    (frame : Faults → Storage → Option Nat) : Prop where
  frames : ∀ io (s : Storage) i, s.mgr.clockHand < s.mgr.numBufs → ((allocBuf io s).1 = .ok i ↔ frame io s = some i)
  table : ∀ io (s : Storage) i, s.mgr.clockHand < s.mgr.numBufs → (allocBuf io s).1 = .ok i →
    (allocBuf io s).2.mgr.hashTable = s.mgr.tableWithout hash i
  headers : ∀ io (s : Storage) file, File.header ((allocBuf io s).2.disk file) = File.header (s.disk file)
  disks : ∀ io m disk disk', frame io ⟨m,disk⟩ = frame io ⟨m,disk'⟩

-- When allocPage fails the header page of the file is what it was.
def AllOrNothing (s : Storage) (file : FileId) (result : Except Status (Int × Nat) × Storage) : Prop :=
  ∀ status, result.1 = .error status → File.SameShape (s.disk file) (result.2.disk file)

-- The pool has a frame for the page, and no entry for it once that frame is free.
def Takes (hash : Hash) (frame : Faults → Storage → Option Nat) (io : Faults) (s : Storage) (file : FileId) : Prop :=
  ∃ i, frame io s = some i ∧ (s.mgr.tableWithout hash i).find hash file (File.next (s.disk file)) = none

section
variable {hash : Hash} {allocBuf : Faults → Storage → Except Status Nat × Storage}
  {frame : Faults → Storage → Option Nat}

theorem allocPageBy_outcome (granting : Granting hash allocBuf frame) (io : Faults) {s : Storage}
    (hand : s.mgr.clockHand < s.mgr.numBufs) (file : FileId) :
    ((∃ status, (allocPageBy hash allocBuf io s file).1 = .error status) ↔
      File.Refuses (io file) (s.disk file) ∨ ¬ Takes hash frame io s file) ∧
    File.header ((allocPageBy hash allocBuf io s file).2.disk file) =
      File.header (File.allocatePage (io file) (s.disk file)).2 := by
  have outcome := File.allocatePage_outcome (io file) (s.disk file)
  unfold allocPageBy
  cases allocated : File.allocatePage (io file) (s.disk file) with
  | mk number unixFile =>
    rw [allocated] at outcome
    dsimp only at outcome ⊢
    have here : Function.update s.disk file unixFile file = unixFile := Function.update_self ..
    rcases outcome with ⟨refuses,⟨status,rfl⟩,kept⟩ | ⟨goes,rfl,_⟩
    · exact ⟨⟨fun _ => .inl refuses,fun _ => ⟨status,rfl⟩⟩,congrArg File.header here⟩
    · dsimp only
      have frames := granting.frames io ⟨s.mgr,Function.update s.disk file unixFile⟩
      have table := granting.table io ⟨s.mgr,Function.update s.disk file unixFile⟩
      have headers := granting.headers io ⟨s.mgr,Function.update s.disk file unixFile⟩ file
      have disks := granting.disks io s.mgr (Function.update s.disk file unixFile) s.disk
      cases result : allocBuf io ⟨s.mgr,Function.update s.disk file unixFile⟩ with
      | mk answer s' =>
        rw [result] at frames table headers
        dsimp only [here] at frames table headers
        rw [here] at headers
        rw [disks] at frames
        cases answer with
        | error status =>
          refine ⟨⟨fun _ => .inr ?_,fun _ => ⟨status,rfl⟩⟩,headers⟩
          rintro ⟨i,found,_⟩
          cases (frames i hand).mpr found
        | ok i =>
          have found := (frames i hand).mp rfl
          have after := table i hand rfl
          dsimp only
          cases present : s'.mgr.hashTable.find hash file (File.next (s.disk file)) with
          | some j =>
            rw [BufHashTbl.insert_present i (show (s'.mgr.setDesc i _).hashTable.find hash file _ =
              some j from present)]
            refine ⟨⟨fun _ => .inr ?_,fun _ => ⟨_,rfl⟩⟩,headers⟩
            rintro ⟨k,same,missing⟩
            cases found.symm.trans same
            rw [after,missing] at present
            cases present
          | none =>
            obtain ⟨table',inserted⟩ := BufHashTbl.insert_missing i
              (show (s'.mgr.setDesc i ((s'.mgr.bufTable i).set file (File.next (s.disk file)))).hashTable.find
                hash file _ = none from present)
            rw [inserted,if_neg (not_not.mpr rfl)]
            refine ⟨⟨fun failed => ?_,fun blocked => ?_⟩,headers⟩
            · obtain ⟨_,none⟩ := failed
              cases none
            · rcases blocked with refuses | refused
              · exact absurd refuses goes
              · rw [after] at present
                exact absurd ⟨i,found,present⟩ refused

theorem allocPageBy_all_or_nothing_iff (granting : Granting hash allocBuf frame) (io : Faults) {s : Storage}
    (hand : s.mgr.clockHand < s.mgr.numBufs) (file : FileId) :
    AllOrNothing s file (allocPageBy hash allocBuf io s file) ↔
      File.Refuses (io file) (s.disk file) ∨ Takes hash frame io s file ∨ File.Looped (s.disk file) := by
  obtain ⟨fails,header⟩ := allocPageBy_outcome granting io hand file
  rcases File.allocatePage_outcome (io file) (s.disk file) with ⟨refuses,_,kept⟩ | ⟨goes,_,shape⟩
  · exact ⟨fun _ => .inl refuses,fun _ _ _ => .of_header (header.trans kept)⟩
  · have same : File.SameShape (s.disk file) ((allocPageBy hash allocBuf io s file).2.disk file) ↔
        File.Looped (s.disk file) := by
      rw [← shape]
      constructor
      · intro shape
        exact ⟨by rw [← header]; exact shape.numPages,by rw [← header]; exact shape.nextFree,by rw [← header]; exact shape.firstPage⟩
      · intro shape
        exact ⟨by rw [header]; exact shape.numPages,by rw [header]; exact shape.nextFree,by rw [header]; exact shape.firstPage⟩
    unfold AllOrNothing
    rw [same]
    constructor
    · intro atomic
      by_cases takes : Takes hash frame io s file
      · exact .inr (.inl takes)
      · obtain ⟨status,failed⟩ := fails.mpr (.inr takes)
        exact .inr (.inr (atomic status failed))
    · rintro (refuses | takes | looped) status failed
      · exact absurd refuses goes
      · rcases fails.mp ⟨status,failed⟩ with refuses | refused
        · exact absurd refuses goes
        · exact absurd takes refused
      · exact looped

end

namespace Storage

-- Whether a write-back works does not depend on what the disk holds.
theorem writeBack_disk (io : Faults) (m : BufMgr) (disk disk' : Disk) (i : Nat) :
    writeBack io ⟨m,disk⟩ i = writeBack io ⟨m,disk'⟩ i := by
  unfold writeBack writeFrame File.writePage File.intwrite
  dsimp only
  cases (m.bufTable i).file with
  | none => rfl
  | some file =>
    dsimp only
    split
    · split
      · rfl
      · split
        · rfl
        · rfl
    · rfl

end Storage

theorem given_ok {status : Status} {i j : Nat} : given status i = .ok j ↔ status = .ok ∧ i = j := by
  unfold given
  split
  · rename_i works
    exact ⟨fun same => ⟨works,Except.ok.inj same⟩,fun both => by rw [both.2]⟩
  · rename_i failed
    exact ⟨fun none => (by cases none),fun both => absurd both.1 failed⟩

namespace Part3

-- The frame that the clock finds, unless its page has to be written back first and cannot be.
def frame (io : Faults) (s : Storage) : Option Nat :=
  (search s.mgr (2 * s.mgr.numBufs)).bind fun place =>
    if (s.mgr.bufTable place.1).valid ∧ s.writeBack io place.1 ≠ .ok then none else some place.1

theorem allocTurns_table (io : Faults) (turns : Nat) {s : Storage} (hand : s.mgr.clockHand < s.mgr.numBufs) {i : Nat}
    (took : (allocTurns io turns s).1 = .ok i) : (allocTurns io turns s).2.mgr.hashTable =
    s.mgr.tableWithout hash i := by
  induction turns generalizing s with
  | zero => cases took
  | succ turns ih =>
    have later : ∀ {m'}, Ticked s.mgr m' → (allocTurns io turns ⟨m',s.disk⟩).1 = .ok i →
        (allocTurns io turns ⟨m',s.disk⟩).2.mgr.hashTable = s.mgr.tableWithout hash i := fun ticked took =>
      (ih (s:=⟨_,s.disk⟩) (lt_of_lt_of_eq ticked.hand ticked.numBufs.symm) took).trans
      (BufMgr.tableWithout_same ticked i)
    unfold allocTurns at took ⊢
    dsimp only at took ⊢
    by_cases invalid : ¬ (s.mgr.bufTable s.mgr.clockHand).valid = true
    · rw [if_pos invalid] at took ⊢
      cases took
      rw [BufMgr.tableWithout,if_neg invalid]
    · rw [if_neg invalid] at took ⊢
      have valid := not_not.mp invalid
      by_cases referenced : (s.mgr.bufTable s.mgr.clockHand).refbit = true
      · rw [if_pos referenced] at took ⊢
        exact later (unreferenced hand s.mgr.clockHand) took
      · rw [if_neg referenced] at took ⊢
        by_cases pinned : (s.mgr.bufTable s.mgr.clockHand).pinCnt > 0
        · rw [if_pos pinned] at took ⊢
          exact later (passed_over hand) took
        · rw [if_neg pinned] at took ⊢
          by_cases dirty : (s.mgr.bufTable s.mgr.clockHand).dirty = true
          · rw [if_pos dirty] at took ⊢
            have same := Storage.writeFrame_mgr io s s.mgr.clockHand
            cases written : s.writeFrame io s.mgr.clockHand with
            | mk status s' =>
              rw [written] at took same
              dsimp only at took same ⊢
              by_cases failed : status ≠ .ok
              · rw [if_pos failed] at took
                cases took
              · rw [if_neg failed] at took ⊢
                cases took
                have counted : Ticked s.mgr s.mgr.countWrite :=
                  ⟨rfl,rfl,rfl,hand,fun i => ⟨(s.mgr.bufTable i).refbit,rfl⟩⟩
                rw [same,← BufMgr.tableWithout_same counted,BufMgr.tableWithout,
                  if_pos (show (s.mgr.countWrite.bufTable s.mgr.clockHand).valid = true from valid)]
                rfl
          · rw [if_neg dirty] at took ⊢
            cases took
            rw [BufMgr.tableWithout,if_pos valid]
            rfl

theorem granting : Granting hash allocBuf frame where
  frames := by
    intro io s i hand
    rw [allocBuf,allocTurns_search io _ hand,frame]
    cases search s.mgr (2 * s.mgr.numBufs) with
    | none => exact ⟨fun none => (by cases none),fun none => (by cases none)⟩
    | some place =>
      rw [answer,Option.bind_some]
      by_cases valid : (s.mgr.bufTable place.1).valid = true
      · rw [if_pos valid,given_ok]
        by_cases works : s.writeBack io place.1 = .ok
        · rw [if_neg fun both => both.2 works]
          exact ⟨fun both => congrArg some both.2,fun same => ⟨works,Option.some.inj same⟩⟩
        · rw [if_pos ⟨valid,works⟩]
          exact ⟨fun both => absurd both.1 works,fun none => by cases none⟩
      · rw [if_neg valid,if_neg fun both => valid both.1]
        exact ⟨fun same => congrArg some (Except.ok.inj same),fun same => congrArg Except.ok (Option.some.inj same)⟩
  table := fun io _ _ hand took => allocTurns_table io _ hand took
  headers := fun io s file => allocTurns_header io _ s file
  disks := by
    intro io m disk disk'
    unfold frame
    dsimp only
    congr 1
    funext place
    rw [Storage.writeBack_disk io m disk disk']

end Part3

namespace Stage6

def frame (io : Faults) (s : Storage) : Option Nat :=
  (search s.mgr (2 * s.mgr.numBufs)).bind fun place => if s.writeBack io place.1 ≠ .ok then none else some place.1

theorem allocBuf_table (io : Faults) {s : Storage} (hand : s.mgr.clockHand < s.mgr.numBufs) {i : Nat}
    (took : (allocBuf io s).1 = .ok i) : (allocBuf io s).2.mgr.hashTable = s.mgr.tableWithout hash i := by
  obtain ⟨ticked,found,stopped⟩ := sweep_spec (2 * s.mgr.numBufs) s.mgr hand
  unfold allocBuf at took ⊢
  generalize sweep (2 * s.mgr.numBufs) s.mgr = swept at ticked found stopped took ⊢
  obtain ⟨m,left,hit⟩ := swept
  dsimp only at ticked found stopped took ⊢
  have dropped : (if hit = true then m.dropEntry hash m.clockHand else m).clockHand = m.clockHand := by
    split
    · unfold BufMgr.dropEntry
      split
      · rfl
      · rfl
    · rfl
  by_cases ended : ¬ hit = true ∧ left = 0
  · rw [if_pos ended] at took
    cases took
  · rw [if_neg ended] at took ⊢
    have table : (if hit = true then m.dropEntry hash m.clockHand else m).hashTable =
        s.mgr.tableWithout hash m.clockHand := by
      rw [← BufMgr.tableWithout_same ticked,BufMgr.tableWithout]
      cases hit with
      | true => rw [if_pos rfl,if_pos (found rfl).1]
      | false =>
        have some_left : left ≠ 0 := fun none => ended ⟨Bool.false_ne_true,none⟩
        rw [if_neg Bool.false_ne_true,stopped rfl some_left,if_neg Bool.false_ne_true]
    generalize (if hit = true then m.dropEntry hash m.clockHand else m) = k at dropped table took ⊢
    rw [dropped] at took ⊢
    split at took
    · rename_i dirty
      rw [if_pos dirty]
      have same := Storage.writeFrame_mgr io ⟨k.countWrite,s.disk⟩ m.clockHand
      cases written : Storage.writeFrame io ⟨k.countWrite,s.disk⟩ m.clockHand with
      | mk status t =>
        rw [written] at took same
        dsimp only at took same ⊢
        by_cases failed : status ≠ .ok
        · rw [if_pos failed] at took
          cases took
        · rw [if_neg failed] at took ⊢
          cases took
          rw [same]
          exact table
    · rename_i clean
      rw [if_neg clean]
      cases took
      exact table

theorem granting : Granting hash allocBuf frame where
  frames := by
    intro io s i hand
    rw [allocBuf_search io hand,frame]
    cases search s.mgr (2 * s.mgr.numBufs) with
    | none => exact ⟨fun none => (by cases none),fun none => (by cases none)⟩
    | some place =>
      rw [answer,Option.bind_some,given_ok]
      by_cases works : s.writeBack io place.1 = .ok
      · rw [if_neg (not_not.mpr works)]
        exact ⟨fun both => congrArg some both.2,fun same => ⟨works,Option.some.inj same⟩⟩
      · rw [if_pos works]
        exact ⟨fun both => absurd both.1 works,fun none => by cases none⟩
  table := fun io _ _ hand took => allocBuf_table io hand took
  headers := fun io s file => allocBuf_header io s file
  disks := by
    intro io m disk disk'
    unfold frame
    dsimp only
    congr 1
    funext place
    rw [Storage.writeBack_disk io m disk disk']

end Stage6

theorem allocPage_all_or_nothing_iff (io : Faults) (s : Storage) (file : FileId)
    (hand : s.mgr.clockHand < s.mgr.numBufs) :
    (AllOrNothing s file (Part3.allocPage io s file) ↔ File.Refuses (io file) (s.disk file) ∨
      Takes Part3.hash Part3.frame io s file ∨ File.Looped (s.disk file)) ∧
    (AllOrNothing s file (Stage6.allocPage io s file) ↔ File.Refuses (io file) (s.disk file) ∨
      Takes Stage6.hash Stage6.frame io s file ∨ File.Looped (s.disk file)) := by
  rw [Part3.allocPage_by,Stage6.allocPage_by]
  exact ⟨allocPageBy_all_or_nothing_iff Part3.granting io hand file,allocPageBy_all_or_nothing_iff Stage6.granting
    io hand file⟩

-- An empty pool takes the first page of a new file.
theorem allocPage_all_or_nothing_iff_first :
    let works : Faults := fun _ => .working
    let s := Storage.start 1 fun _ => File.create
    AllOrNothing s 0 (Part3.allocPage works s 0) ∧ AllOrNothing s 0 (Stage6.allocPage works s 0) := by
  intro works s
  obtain ⟨third,sixth⟩ := allocPage_all_or_nothing_iff works s 0 (by decide)
  exact ⟨third.mpr (.inr (.inl ⟨0,by decide,by decide⟩)),sixth.mpr (.inr (.inl ⟨0,by decide,by decide⟩))⟩

-- With the only frame pinned the call fails, and the file has a page more.
theorem allocPage_grows_file :
    let works : Faults := fun _ => .working
    (¬ ∀ s file, AllOrNothing s file (Part3.allocPage works s file)) ∧ ¬ ∀ s file, AllOrNothing s file
    (Stage6.allocPage works s file) := by
  intro works
  refine ⟨fun atomic => ?_,fun atomic => ?_⟩
  · have kept := atomic ((Storage.start 1 fun _ => File.create).calls Part3.release [(works,.allocPage 0)])
      0 .bufferExceeded
      (by decide +kernel)
    have count := kept.numPages
    revert count
    decide +kernel
  · have kept := atomic ((Storage.start 1 fun _ => File.create).calls Stage6.release [(works,.allocPage 0)])
      0 .bufferExceeded
      (by decide +kernel)
    have count := kept.numPages
    revert count
    decide +kernel

end Minirel
