import Minirel.FlushExact
import Minirel.OpenAccounts

namespace Minirel.Stage6

-- Every dirty page of the file has been written, and the pool does not know the File any more.
structure Closed (p : Process) (file : FileId) (o : FileObject) (p' : Process) : Prop where
  stored : ∀ i pageNo, i < p.mgr.numBufs → (p.mgr.bufTable i).Holds file pageNo → (p.mgr.bufTable i).dirty = true →
    File.at? ((p'.unix.files o.fileName).getD []) pageNo = some (p.mgr.bufPool i)
  frames : ∀ i, i < p.mgr.numBufs → (p'.mgr.bufTable i).file ≠ some file
  entries : ∀ pageNo, p'.mgr.hashTable.find hash file pageNo = none

-- flushFile gets past every frame of the file, each entry of the file has its frame, and dirty
-- frames with the same page have the same bytes.
structure Releasable (io : Io) (m : BufMgr) (file : FileId) : Prop where
  passes : ∀ i, i < m.numBufs → Storage.Passes (fun _ => io) file (m.bufTable i)
  entered : ∀ pageNo, m.hashTable.find hash file pageNo ≠ none → ∃ i, i < m.numBufs ∧ (m.bufTable i).Holds file pageNo
  agree : ∀ i j pageNo, i < m.numBufs → j < m.numBufs → (m.bufTable i).Holds file pageNo →
    (m.bufTable j).Holds file pageNo →
    (m.bufTable i).dirty = true → (m.bufTable j).dirty = true → m.bufPool i = m.bufPool j

variable {p p' : Process} {k : Kernel} {file : FileId} {o : FileObject}

-- What the last close leaves in the pool and on the disk is what flushFile leaves there.
theorem closeFile_flushes (object : p.objects file = some o) (last : o.openCnt = 1)
    (closed : p.closeFile k (some file) = .ok (.ok,p')) :
    p'.mgr = (p.flush k file o).mgr ∧ p'.unix.files = (p.flush k file o).unix.files := by
  have open_ : ¬ o.openCnt ≤ 0 := by omega
  have zero : o.openCnt - 1 = 0 := by omega
  unfold Process.closeFile at closed
  dsimp only at closed
  rw [object] at closed
  dsimp only at closed
  have done : (p.close k file o).2.1 = {o with openCnt := o.openCnt - 1} ∧
    (p.close k file o).2.2.mgr = (p.flush k file o).mgr ∧
      (p.close k file o).2.2.unix.files = (p.flush k file o).unix.files := by
    rw [Process.close,if_neg open_]
    dsimp only
    rw [if_pos zero]
    split
    · unfold Unix.closeFd
      split <;> exact ⟨rfl,rfl,rfl⟩
    · exact ⟨rfl,rfl,rfl⟩
  obtain ⟨same,mgr,files⟩ := done
  rw [same,if_pos zero] at closed
  split at closed
  · cases closed
  · cases closed
    exact ⟨mgr,files⟩

-- The last close keeps what flushFile makes of the pool and of the file.
theorem closeFile_flushed {k : Kernel} {p : Process} {file : FileId} {o : FileObject} {p' : Process}
    (object : p.objects file = some o)
    (there : (p.unix.files o.fileName).isSome) (last : o.openCnt = 1) (closed : p.closeFile k (some file) =
      .ok (.ok,p')) :
    p'.mgr = (flushFile (fun _ => k.io) ⟨p.mgr,p.disk⟩ file).2.mgr ∧
      (p'.unix.files o.fileName).getD [] = (flushFile (fun _ => k.io) ⟨p.mgr,p.disk⟩ file).2.disk file := by
  obtain ⟨mgr,files⟩ := closeFile_flushes object last closed
  refine ⟨mgr,?_⟩
  obtain ⟨c,here⟩ := Option.isSome_iff_exists.mp there
  rw [files]
  change (Function.update p.unix.files o.fileName ((p.unix.files o.fileName).map fun _ => _) o.fileName).getD [] = _
  rw [Function.update_self,here]
  rfl

-- The last close of a file is complete exactly when nothing keeps flushFile from going through.
theorem closeFile_complete_iff (k : Kernel) (p : Process) (file : FileId) (o : FileObject) (p' : Process)
    (sound : BucketTable.Sound p.mgr.hashTable.ht) (object : p.objects file = some o)
    (there : (p.unix.files o.fileName).isSome)
    (last : o.openCnt = 1) (closed : p.closeFile k (some file) = .ok (.ok,p')) :
    Closed p file o p' ↔ Releasable k.io p.mgr file := by
  obtain ⟨mgr,content⟩ := closeFile_flushed object there last closed
  obtain ⟨j,progress,ends⟩ := Storage.flushFile_ends (fun _ => k.io) file
    (show BucketTable.Sound (Storage.mk p.mgr p.disk).mgr.hashTable.ht from sound)
  change Storage.Progress hash file j ⟨p.mgr,p.disk⟩ (flushFile (fun _ => k.io) ⟨p.mgr,p.disk⟩ file).2 at progress
  change Storage.Ends (fun _ => k.io) file ⟨p.mgr,p.disk⟩ j (flushFile (fun _ => k.io) ⟨p.mgr,p.disk⟩ file).1 at ends
  generalize flushFile (fun _ => k.io) ⟨p.mgr,p.disk⟩ file = result at mgr content progress ends
  obtain ⟨status,s'⟩ := result
  dsimp only at mgr content progress ends
  constructor
  · intro complete
    -- The frame that flushFile stops at still refers to the File.
    have ok : status = .ok := by
      by_contra failed
      obtain ⟨inside,named,_⟩ := ends.stuck failed
      refine complete.frames j inside ?_
      rw [mgr,progress.kept j (.inl (Nat.le_refl j))]
      exact named
    have all : j = p.mgr.numBufs := ends.ended ok
    refine ⟨fun i inside => ends.passed i (by omega),fun pageNo found =>
      ?_,fun i i' pageNo inside within one two dirty dirty' => ?_⟩
    · by_contra nobody
      have absent : ∀ i, i < j → ¬ (p.mgr.bufTable i).Holds file pageNo := fun i below holds =>
        nobody ⟨i,by omega,holds⟩
      have gone := complete.entries pageNo
      rw [mgr,progress.entries file pageNo fun _ => absent] at gone
      exact found gone
    · exact Option.some.inj ((complete.stored i pageNo inside one dirty).symm.trans
        (complete.stored i' pageNo within two dirty'))
  · intro releasable
    have ok : status = .ok := by
      by_contra failed
      obtain ⟨inside,_,stops⟩ := ends.stuck failed
      exact stops (releasable.passes j inside)
    have all : j = p.mgr.numBufs := ends.ended ok
    subst all
    refine ⟨fun i pageNo inside holds dirty => ?_,fun i inside => ?_,fun pageNo => ?_⟩
    · obtain ⟨i',within,holds',dirty',stored⟩ := progress.written i pageNo inside holds dirty
      rw [content,stored,releasable.agree i i' pageNo inside within holds holds' dirty dirty']
    · rw [mgr]
      by_cases ours : (p.mgr.bufTable i).file = some file
      · rw [progress.released i inside ours]
        intro none
        cases none
      · rw [progress.kept i (.inr ours)]
        exact ours
    · rw [mgr]
      by_cases holder : ∃ i, i < p.mgr.numBufs ∧ (p.mgr.bufTable i).Holds file pageNo
      · obtain ⟨i,inside,holds⟩ := holder
        exact progress.dropped i pageNo inside holds
      · refine (progress.entries file pageNo fun _ i inside holds => holder ⟨i,inside,holds⟩).trans ?_
        by_contra found
        exact holder (releasable.entered pageNo found)

-- The file of one caller, with some pool behind it.
def heldProcess (m : BufMgr) : Process :=
  {sampleProcess.setObject 7 (some ⟨[97],1,3⟩) with
    openFiles := (sampleProcess.openFiles.insert [97] 7).2, mgr := m, unix := sampleProcess.unix.openFd [97] 3}

-- Page 1 of the file is dirty and still pinned.
def pinnedMgr : BufMgr :=
  {BufMgr.init 1 with
    hashTable := ((BufHashTbl.init 2).insert hash 7 1 0).2
    bufTable := fun _ => ⟨some 7,1,0,1,true,true,true⟩}

-- Page 1 of the file is dirty and nobody has it pinned.
def dirtyMgr : BufMgr := {pinnedMgr with bufTable := fun _ => ⟨some 7,1,0,0,true,true,true⟩}

theorem pinned_sound : BucketTable.Sound pinnedMgr.hashTable.ht := by
  have nothing : BucketTable.Sound (BufHashTbl.init 2).ht := fun _ => List.nodup_nil
  obtain ⟨t,inserted,sound,_⟩ := BufHashTbl.insert_spec hash 0 nothing (show (BufHashTbl.init 2).find hash 7 1 =
    none from rfl)
  change BucketTable.Sound ((BufHashTbl.init 2).insert hash 7 1 0).2.ht
  rw [inserted]
  exact sound

theorem closeFile_complete_dirty_frame : ∃ p', (heldProcess dirtyMgr).closeFile sampleKernel (some 7) = .ok (.ok,p') ∧
    (Closed (heldProcess dirtyMgr) 7 ⟨[97],1,3⟩ p' ↔ Releasable .working dirtyMgr 7) := by
  have closed := Process.closeFile_last (show (heldProcess dirtyMgr).objects 7 = some ⟨[97],1,3⟩ from rfl) rfl
    (show sampleKernel.closes = true from rfl) rfl rfl
  exact ⟨_,closed,closeFile_complete_iff sampleKernel (heldProcess dirtyMgr) 7 ⟨[97],1,3⟩ _ pinned_sound
    rfl rfl rfl closed⟩

-- The last close returns OK, and the frame still refers to the File that is gone.
theorem pinned_page_outlives_file : ¬ ∀ (k : Kernel) (p : Process) (file : FileId) (o : FileObject) (p' : Process),
    BucketTable.Sound p.mgr.hashTable.ht → p.objects file = some o → (p.unix.files o.fileName).isSome → o.openCnt = 1 →
    p.closeFile k (some file) = .ok (.ok,p') → Closed p file o p' := by
  intro always
  have closed := Process.closeFile_last (show (heldProcess pinnedMgr).objects 7 = some ⟨[97],1,3⟩ from rfl)
    rfl (show sampleKernel.closes = true from rfl) rfl rfl
  have complete := always sampleKernel (heldProcess pinnedMgr) 7 ⟨[97],1,3⟩ _ pinned_sound rfl rfl rfl closed
  exact complete.frames 0 (by decide) (by decide)

end Minirel.Stage6
