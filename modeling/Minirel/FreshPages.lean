import Minirel.PageGrants
import Minirel.FlushExact

namespace Minirel
open ByteMemory Consistent

-- The page that extends a file is written as zero bytes, behind the last page.
theorem File.extend_zeroed {io : Io} {file file' : UnixFile} {n : Int} (counted : Counted file)
    (none_free : NoFreePages file)
    (allocated : allocatePage io file = (.ok n,file')) : n = next file ∧ at? file' n = some (zero 1024) := by
  have here : next file = DBPage.numPages (header file) := if_pos none_free
  rw [here]
  unfold allocatePage at allocated
  rw [intread_header counted.present] at allocated
  split at allocated
  · cases allocated
  · rename_i _ header' read
    split at read
    · cases read
    · cases read
      rw [if_neg (not_not.mpr (show DBPage.nextFree (header file) = -1 from none_free))] at allocated
      unfold extend at allocated
      dsimp only at allocated
      split at allocated
      · rename_i _ file₁ wrote
        split at allocated
        · rename_i _ file₂ wrote'
          cases allocated
          refine ⟨rfl,?_⟩
          unfold intwrite at wrote wrote'
          split at wrote
          · cases wrote
          · rename_i goes
            split at wrote'
            · cases wrote'
            · cases wrote
              cases wrote'
              have bound := counted.bound
              have number := counted.counted
              -- A file of 2^31 pages would get a page of negative number.
              have length : DBPage.numPages (header file) = file.length := by
                rw [number,Int.bmod_def]
                rw [number,Int.bmod_def] at goes
                omega
              have positive := counted.present
              rw [length,Int.toNat_natCast,Int.toNat_zero,at_overwrite _ (Nat.zero_le _),if_neg (by omega),
                at_overwrite _ (Nat.le_refl _),
                if_pos rfl]
        · cases allocated
      · cases allocated

namespace Storage

-- What a write of a frame does to the disk depends on what the frame holds only.
theorem writeFrame_like (io : Faults) {m k : BufMgr} (disk : Disk) (i : Nat)
    (file : (k.bufTable i).file = (m.bufTable i).file)
    (pageNo : (k.bufTable i).pageNo = (m.bufTable i).pageNo) (pool : k.bufPool i = m.bufPool i) :
    (writeFrame io ⟨k,disk⟩ i).1 = (writeFrame io ⟨m,disk⟩ i).1 ∧
    (writeFrame io ⟨k,disk⟩ i).2.disk = (writeFrame io ⟨m,disk⟩ i).2.disk := by
  unfold writeFrame
  dsimp only
  rw [file,pageNo,pool]
  cases (m.bufTable i).file with
  | none => exact ⟨rfl,rfl⟩
  | some file => exact ⟨rfl,rfl⟩

-- Whether the write works does not depend on the bytes.
theorem writeBack_pool (io : Faults) (m : BufMgr) (pool : Nat → Page) (disk : Disk) (i : Nat) :
    writeBack io ⟨{m with bufPool := pool},disk⟩ i = writeBack io ⟨m,disk⟩ i := by
  unfold writeBack writeFrame File.writePage File.intwrite
  dsimp only
  cases (m.bufTable i).file with
  | none => rfl
  | some file =>
    dsimp only
    split
    · split
      · rfl
      · split <;> rfl
    · rfl

-- A page that is on the disk changes by the write of its own frame only.
theorem writeFrame_at (io : Faults) {s : Storage} {i : Nat} (works : (s.writeFrame io i).1 = .ok) {file : FileId}
    {pageNo : Int} {page : Page}
    (there : File.at? (s.disk file) pageNo = some page) :
    File.at? ((s.writeFrame io i).2.disk file) pageNo =
      if (s.mgr.bufTable i).file = some file ∧ (s.mgr.bufTable i).pageNo =
        pageNo then some (s.mgr.bufPool i) else some page := by
  unfold writeFrame at works ⊢
  generalize (s.mgr.bufTable i).file = named at works ⊢
  cases named with
  | none =>
    rw [if_neg fun both => by cases both.1]
    exact there
  | some g =>
    dsimp only at works ⊢
    cases wrote : File.writePage (io g) (s.disk g) (s.mgr.bufTable i).pageNo (s.mgr.bufPool i) with
    | mk status unixFile =>
      rw [wrote] at works
      dsimp only at works ⊢
      subst works
      by_cases here : file = g
      · subst here
        rw [Function.update_self]
        by_cases same : (s.mgr.bufTable i).pageNo = pageNo
        · rw [if_pos ⟨rfl,same⟩,← same]
          exact File.at_writePage_same wrote
        · rw [if_neg fun both => same both.2]
          exact File.at_writePage_other there (Ne.symm same) wrote
      · rw [Function.update_of_ne here,if_neg fun both => here (Option.some.inj both.1).symm]
        exact there

end Storage

namespace Stage6

-- allocBuf hands out the frame with the bytes it has, after writing them back if they are dirty.
theorem allocBuf_took (io : Faults) {s s' : Storage} {i : Nat} (hand : s.mgr.clockHand < s.mgr.numBufs)
    (took : allocBuf io s = (.ok i,s')) :
    frame io s = some i ∧ s'.mgr.bufPool = s.mgr.bufPool ∧
      s'.disk = if (s.mgr.bufTable i).dirty = true then (s.writeFrame io i).2.disk else s.disk := by
  refine ⟨(granting.frames io s i hand).mp (by rw [took]),?_⟩
  obtain ⟨ticked,_,_⟩ := sweep_spec (2 * s.mgr.numBufs) s.mgr hand
  unfold allocBuf at took
  generalize sweep (2 * s.mgr.numBufs) s.mgr = swept at ticked took
  obtain ⟨m,left,hit⟩ := swept
  dsimp only at ticked took
  have dropped : ∀ b : Bool, (if b = true then m.dropEntry hash m.clockHand else m).bufTable = m.bufTable ∧
      (if b = true then m.dropEntry hash m.clockHand else m).bufPool = m.bufPool := by
    intro b
    cases b with
    | false => exact ⟨rfl,rfl⟩
    | true =>
      rw [if_pos rfl]
      unfold BufMgr.dropEntry
      split <;> exact ⟨rfl,rfl⟩
  obtain ⟨descs,pool⟩ := dropped hit
  generalize (if hit = true then m.dropEntry hash m.clockHand else m) = k at descs pool took
  obtain ⟨sameFile,samePage,sameDirty⟩ := ticked_desc ticked k.clockHand
  split at took
  · cases took
  · rw [descs,sameDirty] at took
    by_cases dirty : (s.mgr.bufTable k.clockHand).dirty = true
    · rw [if_pos dirty] at took
      have wrote := Storage.writeFrame_like io (m:=s.mgr) (k:=k.countWrite) s.disk k.clockHand
        ((congrArg BufDesc.file (congrFun descs _)).trans sameFile)
        ((congrArg BufDesc.pageNo (congrFun descs _)).trans samePage) (by rw [← ticked.bufPool]; exact congrFun pool _)
      have same := Storage.writeFrame_mgr io ⟨k.countWrite,s.disk⟩ k.clockHand
      generalize Storage.writeFrame io ⟨k.countWrite,s.disk⟩ k.clockHand = written at took wrote same
      obtain ⟨status,t⟩ := written
      dsimp only at took wrote same
      split at took
      · cases took
      · cases took
        rw [if_pos dirty]
        exact ⟨by rw [same]; exact pool.trans ticked.bufPool,wrote.2⟩
    · rw [if_neg dirty] at took
      cases took
      rw [if_neg dirty]
      exact ⟨pool.trans ticked.bufPool,rfl⟩

-- Two pool states that only the bytes in frames without a pin tell apart.
structure LikeButUnpinned (s t : Storage) : Prop where
  disk : t.disk = s.disk
  mgr : t.mgr = {s.mgr with bufPool := t.mgr.bufPool}
  pinned : ∀ i, (s.mgr.bufTable i).pinCnt ≠ 0 → t.mgr.bufPool i = s.mgr.bufPool i

-- The page shows the same bytes in both, and those of the disk when the file has been extended by it.
structure FreshPage (file : FileId) (s s' t' : Storage) (pageNo : Int) (frame frame' : Nat) : Prop where
  same : s'.mgr.bufPool frame = t'.mgr.bufPool frame'
  stored : File.NoFreePages (s.disk file) → File.at? (s'.disk file) pageNo = some (s'.mgr.bufPool frame)

-- The frame that the clock comes to has the same bytes in both, and zero bytes when the file is
-- extended, unless what is written back from it is a page of that number.
def CleanFrame (io : Faults) (file : FileId) (s t : Storage) : Prop :=
  ∃ i, frame io s = some i ∧ s.mgr.bufPool i = t.mgr.bufPool i ∧
    (File.NoFreePages (s.disk file) → s.mgr.bufPool i = zero 1024 ∨
      (s.mgr.bufTable i).dirty = true ∧ (s.mgr.bufTable i).file = some file ∧
      (s.mgr.bufTable i).pageNo = File.next (s.disk file))

theorem allocPage_took (io : Faults) {s s' : Storage} {file : FileId} {n : Int} {i : Nat}
    (hand : s.mgr.clockHand < s.mgr.numBufs)
    (took : allocPage io s file = (.ok (n,i),s')) :
    ∃ unixFile, File.allocatePage (io file) (s.disk file) = (.ok n,unixFile) ∧ frame io s = some i ∧
      s'.mgr.bufPool = s.mgr.bufPool ∧
      s'.disk = if (s.mgr.bufTable i).dirty = true then
        (Storage.writeFrame io ⟨s.mgr,Function.update s.disk file unixFile⟩ i).2.disk
        else Function.update s.disk file unixFile := by
  unfold allocPage at took
  cases allocated : File.allocatePage (io file) (s.disk file) with
  | mk number unixFile =>
    rw [allocated] at took
    dsimp only at took
    cases number with
    | error status => cases took
    | ok pageNo =>
      dsimp only at took
      cases result : allocBuf io ⟨s.mgr,Function.update s.disk file unixFile⟩ with
      | mk answer t =>
        rw [result] at took
        cases answer with
        | error status => cases took
        | ok j =>
          dsimp only at took
          split at took
          · cases took
          · cases took
            obtain ⟨found,pool,disk⟩ := allocBuf_took io (s:=⟨s.mgr,Function.update s.disk file unixFile⟩) hand result
            rw [granting.disks io s.mgr _ s.disk] at found
            exact ⟨unixFile,rfl,found,pool,disk⟩

theorem frame_like {io : Faults} {s t : Storage} (like : LikeButUnpinned s t) : frame io t = frame io s := by
  obtain ⟨m,disk⟩ := t
  obtain ⟨same,mgr,_⟩ := like
  dsimp only at same mgr
  rw [mgr,same]
  unfold frame
  have searched : search {s.mgr with bufPool := m.bufPool} (2 * s.mgr.numBufs) = search s.mgr (2 * s.mgr.numBufs) := rfl
  dsimp only
  rw [searched]
  congr 1
  funext place
  rw [Storage.writeBack_pool]

theorem frame_writes {io : Faults} {s : Storage} {i : Nat} (found : frame io s = some i)
    (dirty : (s.mgr.bufTable i).dirty = true) :
    (s.writeFrame io i).1 = .ok := by
  unfold frame at found
  cases taken : search s.mgr (2 * s.mgr.numBufs) with
  | none =>
    rw [taken] at found
    cases found
  | some place =>
    rw [taken,Option.bind_some] at found
    split at found
    · cases found
    · rename_i works
      cases found
      unfold Storage.writeBack at works
      rw [if_pos dirty] at works
      exact not_not.mp works

-- What the disk has of a page that extends the file, once the frame's old page has been written back.
theorem allocPage_extended (io : Faults) {s s' : Storage} {file : FileId} {n : Int} {i : Nat}
    (hand : s.mgr.clockHand < s.mgr.numBufs)
    (counted : File.Counted (s.disk file)) (none_free : File.NoFreePages (s.disk file))
    (took : allocPage io s file = (.ok (n,i),s')) :
    n = File.next (s.disk file) ∧ File.at? (s'.disk file) n =
      if (s.mgr.bufTable i).dirty = true ∧ (s.mgr.bufTable i).file = some file ∧
        (s.mgr.bufTable i).pageNo = n then some (s.mgr.bufPool i)
      else some (zero 1024) := by
  obtain ⟨unixFile,allocated,found,_,disk⟩ := allocPage_took io hand took
  obtain ⟨number,zeroed⟩ := File.extend_zeroed counted none_free allocated
  refine ⟨number,?_⟩
  rw [disk]
  by_cases dirty : (s.mgr.bufTable i).dirty = true
  · have there : File.at? ((⟨s.mgr,Function.update s.disk file unixFile⟩ : Storage).disk file) n =
        some (zero 1024) := by
      dsimp only
      rw [Function.update_self]
      exact zeroed
    have works : (Storage.writeFrame io ⟨s.mgr,Function.update s.disk file unixFile⟩ i).1 = .ok := by
      rw [← granting.disks io s.mgr (Function.update s.disk file unixFile) s.disk] at found
      exact frame_writes found dirty
    rw [if_pos dirty,Storage.writeFrame_at io works there]
    refine if_congr ?_ rfl rfl
    exact ⟨fun both => ⟨dirty,both⟩,And.right⟩
  · rw [if_neg dirty,if_neg fun all => dirty all.1,Function.update_self]
    exact zeroed

-- The new page has nothing of the page that its frame held exactly when the frame was clean before.
theorem allocPage_fresh_iff (io : Faults) (s t : Storage) (file : FileId) (hand : s.mgr.clockHand < s.mgr.numBufs)
    (counted : File.Counted (s.disk file)) (like : LikeButUnpinned s t) (n n' : Int) (i i' : Nat) (s' t' : Storage)
    (one : allocPage io s file = (.ok (n,i),s')) (two : allocPage io t file = (.ok (n',i'),t')) :
    FreshPage file s s' t' n i i' ↔ CleanFrame io file s t := by
  have hand' : t.mgr.clockHand < t.mgr.numBufs := by
    rw [like.mgr]
    exact hand
  obtain ⟨_,_,found,pool,_⟩ := allocPage_took io hand one
  obtain ⟨_,_,found',pool',_⟩ := allocPage_took io hand' two
  rw [frame_like like,found] at found'
  cases found'
  constructor
  · intro fresh
    refine ⟨i,found,?_,fun none_free => ?_⟩
    · have same := fresh.same
      rw [pool,pool'] at same
      exact same
    · obtain ⟨number,there⟩ := allocPage_extended io hand counted none_free one
      have given := fresh.stored none_free
      rw [there,pool] at given
      rw [← number]
      split at given
      · rename_i own
        exact .inr own
      · exact .inl (Option.some.inj given).symm
  · intro clean
    obtain ⟨j,found',same,empty⟩ := clean
    rw [found] at found'
    cases found'
    refine ⟨by rw [pool,pool']; exact same,fun none_free => ?_⟩
    obtain ⟨number,there⟩ := allocPage_extended io hand counted none_free one
    rw [there,pool]
    split
    · rfl
    · rename_i other
      rcases empty none_free with zeroed | own
      · rw [zeroed]
      · rw [← number] at own
        exact absurd own other

-- One frame, with page 1 of file 1 in it and no pin on it; file 0 is new.
def usedFrame (page : Page) : Storage where
  mgr := {BufMgr.init 1 with
    hashTable := ((BufHashTbl.init 2).insert hash 1 1 0).2
    bufTable := fun _ => ⟨some 1,1,0,0,false,true,false⟩
    bufPool := fun _ => page}
  disk := fun _ => File.create

theorem usedFrame_like (page page' : Page) : LikeButUnpinned (usedFrame page) (usedFrame page') :=
  ⟨rfl,rfl,fun _ pinned => absurd rfl pinned⟩

theorem allocPage_fresh_iff_zero : ∃ s', allocPage (fun _ => .working) (usedFrame (zero 1024)) 0 = (.ok (1,0),s') ∧
    (FreshPage 0 (usedFrame (zero 1024)) s' s' 1 0 0 ↔ CleanFrame (fun _ => .working) 0 (usedFrame (zero 1024))
      (usedFrame (zero 1024))) := by
  have number : (allocPage (fun _ => .working) (usedFrame (zero 1024)) 0).1 = .ok (1,0) := by decide
  have took : allocPage (fun _ => .working) (usedFrame (zero 1024)) 0 =
      (.ok (1,0),(allocPage (fun _ => .working) (usedFrame (zero 1024)) 0).2) :=
    Prod.ext number rfl
  exact ⟨_,took,allocPage_fresh_iff (fun _ => .working) _ _ 0 (by decide) File.create_counted.1
    (usedFrame_like _ _) 1 1 0 0 _ _ took took⟩

-- The new page of file 0 shows the bytes that page 1 of file 1 had.
theorem evicted_bytes_visible : ¬ ∀ (io : Faults) (s t : Storage) (file : FileId), s.mgr.clockHand < s.mgr.numBufs →
    File.Counted (s.disk file) → LikeButUnpinned s t → ∀ (n n' : Int) (i i' : Nat) (s' t' : Storage),
      allocPage io s file = (.ok (n,i),s') → allocPage io t file = (.ok (n',i'),t') →
        FreshPage file s s' t' n i i' := by
  intro always
  have number : (allocPage (fun _ => .working) (usedFrame (zero 1024)) 0).1 = .ok (1,0) := by decide
  have number' : (allocPage (fun _ => .working) (usedFrame fun _ => 1) 0).1 = .ok (1,0) := by decide
  have fresh := always (fun _ => .working) (usedFrame (zero 1024)) (usedFrame fun _ => 1) 0
    (by decide) File.create_counted.1 (usedFrame_like _ _)
    1 1 0 0 _ _ (Prod.ext number rfl) (Prod.ext number' rfl)
  have byte := congrFun fresh.same 0
  revert byte
  decide

end Stage6
end Minirel
