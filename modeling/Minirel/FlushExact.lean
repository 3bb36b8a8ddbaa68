import Minirel.BufFlush
import Minirel.BufStage6

namespace Minirel
open BucketTable

section anyHash

variable {hash : Hash} {io : Faults} {file : FileId} {s s' : Storage} {i : Nat}

-- A frame after flushFile has given it up.
def BufDesc.released (d : BufDesc) : BufDesc := {d with dirty := false, file := none, pageNo := -1, valid := false}

namespace Storage

-- flushFile goes on behind the frame.
def Passes (io : Faults) (file : FileId) (d : BufDesc) : Prop :=
  d.file = some file → d.valid = true ∧ ¬ d.pinCnt > 0 ∧
    (d.dirty = true → 1 ≤ d.pageNo ∧ (io file).write d.pageNo = false)

-- What flushFile has done once it has come to frame i.
structure Progress (hash : Hash) (file : FileId) (i : Nat) (s s' : Storage) : Prop where
  sound : Sound s'.mgr.hashTable.ht
  size : s'.mgr.numBufs = s.mgr.numBufs
  pool : s'.mgr.bufPool = s.mgr.bufPool
  released : ∀ j, j < i → (s.mgr.bufTable j).file = some file → s'.mgr.bufTable j = (s.mgr.bufTable j).released
  kept : ∀ j, i ≤ j ∨ (s.mgr.bufTable j).file ≠ some file → s'.mgr.bufTable j = s.mgr.bufTable j
  dropped : ∀ j q, j < i → (s.mgr.bufTable j).Holds file q → s'.mgr.hashTable.find hash file q = none
  entries : ∀ g q, (g = file → ∀ j, j < i → ¬ (s.mgr.bufTable j).Holds file q) →
    s'.mgr.hashTable.find hash g q = s.mgr.hashTable.find hash g q
  others : ∀ g, g ≠ file → s'.disk g = s.disk g
  unwritten : ∀ q page, File.at? (s.disk file) q = some page →
    (∀ j, j < i → (s.mgr.bufTable j).Holds file q → (s.mgr.bufTable j).dirty = false) →
    File.at? (s'.disk file) q = some page
  written : ∀ j q, j < i → (s.mgr.bufTable j).Holds file q → (s.mgr.bufTable j).dirty = true →
    ∃ k, k < i ∧ (s.mgr.bufTable k).Holds file q ∧ (s.mgr.bufTable k).dirty = true ∧
      File.at? (s'.disk file) q = some (s.mgr.bufPool k)

theorem Progress.start (sound : Sound s.mgr.hashTable.ht) : Progress hash file 0 s s where
  sound := sound
  size := rfl
  pool := rfl
  released := fun _ none => by omega
  kept := fun _ _ => rfl
  dropped := fun _ _ none => by omega
  entries := fun _ _ _ => rfl
  others := fun _ _ => rfl
  unwritten := fun _ _ found _ => found
  written := fun _ _ none => by omega

end Storage

-- A page that the file has is not disturbed by a write to another, wherever that is.
theorem File.at_writePage_other {io : Io} {f f' : UnixFile} {pageNo q : Int} {page old : Page}
    (there : File.at? f q = some old)
    (other : q ≠ pageNo) (written : File.writePage io f pageNo page = (.ok,f')) : File.at? f' q = some old := by
  obtain ⟨low,high⟩ := File.at_some_bound there
  have positive := File.writePage_low written
  unfold File.writePage File.intwrite at written
  split at written
  · cases written
  · split at written
    · cases written
    · cases written
      simp only [File.at?,if_neg (show ¬ q < 0 by omega)] at there ⊢
      unfold File.overwrite
      split
      · rw [List.getElem?_set_ne (by omega)]
        exact there
      · rw [List.append_assoc,List.getElem?_append_left (by omega)]
        exact there

theorem File.at_writePage_same {io : Io} {f f' : UnixFile} {pageNo : Int} {page : Page}
    (written : File.writePage io f pageNo page = (.ok,f')) : File.at? f' pageNo = some page := by
  have positive := File.writePage_low written
  unfold File.writePage File.intwrite at written
  split at written
  · cases written
  · split at written
    · cases written
    · cases written
      simp only [File.at?,if_neg (show ¬ pageNo < 0 by omega)]
      unfold File.overwrite
      split
      · rename_i inside
        rw [List.getElem?_set_self inside]
      · have ended : (f ++ List.replicate (pageNo.toNat - f.length) (ByteMemory.zero 1024)).length = pageNo.toNat := by
          simp
          omega
        rw [List.getElem?_append_right (Nat.le_of_eq ended),ended,Nat.sub_self]
        rfl

namespace Storage

theorem writeFrame_holds (io : Faults) {pageNo : Int} (holds : (s.mgr.bufTable i).Holds file pageNo) (low : 1 ≤ pageNo)
    (works : (io file).write pageNo = false) :
    ∃ f', File.writePage (io file) (s.disk file) pageNo (s.mgr.bufPool i) = (.ok,f') ∧
      s.writeFrame io i = (.ok,{s with disk := Function.update s.disk file f'}) := by
  have accepted : File.writePage (io file) (s.disk file) pageNo (s.mgr.bufPool i) =
      (.ok,File.overwrite (s.disk file) pageNo.toNat (s.mgr.bufPool i)) := by
    rw [File.writePage,if_neg (by omega),File.intwrite,if_neg]
    rw [works]
    intro refused
    rcases refused with broken | negative
    · cases broken
    · omega
  refine ⟨_,accepted,?_⟩
  unfold writeFrame
  rw [holds.2.1,holds.2.2]
  dsimp only
  rw [accepted]

theorem writeFrame_refused (io : Faults) {pageNo : Int} (holds : (s.mgr.bufTable i).Holds file pageNo)
    (broken : ¬ (1 ≤ pageNo ∧ (io file).write pageNo = false)) :
    ∃ status, s.writeFrame io i = (status,s) ∧ status ≠ .ok ∧ status ≠ .pagePinned := by
  cases written : s.writeFrame io i with
  | mk status s' =>
    have failed : status ≠ .ok ∧ status ≠ .pagePinned := by
      unfold writeFrame at written
      rw [holds.2.1,holds.2.2] at written
      dsimp only at written
      unfold File.writePage File.intwrite at written
      split at written
      · cases written
        exact ⟨Status.noConfusion,Status.noConfusion⟩
      · split at written
        · cases written
          exact ⟨Status.noConfusion,Status.noConfusion⟩
        · rename_i low goes
          refine absurd ⟨by omega,?_⟩ broken
          exact Bool.eq_false_iff.mpr fun broken => goes (.inl broken)
    rw [writeFrame_failed written failed.1]
    exact ⟨status,rfl,failed⟩

-- One frame of the file, given up after its page has been written if it was dirty.
theorem Progress.release {s₀ : Storage} (s₁ : Storage) (progress : Progress hash file i s₀ s)
    (named : (s₀.mgr.bufTable i).file = some file) (valid : (s₀.mgr.bufTable i).valid = true)
    (mgr : s₁.mgr = s.mgr) (others : ∀ g, g ≠ file → s₁.disk g = s.disk g)
    (stays : ∀ q page, File.at? (s.disk file) q = some page →
      (q = (s₀.mgr.bufTable i).pageNo → (s₀.mgr.bufTable i).dirty = false) → File.at? (s₁.disk file) q = some page)
    (stored : (s₀.mgr.bufTable i).dirty = true → File.at? (s₁.disk file) (s₀.mgr.bufTable i).pageNo =
      some (s₀.mgr.bufPool i)) :
    Progress hash file (i+1) s₀
      ⟨(s₁.mgr.setTable (s₁.mgr.hashTable.remove hash file (s.mgr.bufTable i).pageNo).2).setDesc i
      (s.mgr.bufTable i).released,s₁.disk⟩ := by
  have same : s.mgr.bufTable i = s₀.mgr.bufTable i := progress.kept i (.inl (Nat.le_refl i))
  have here : (s₀.mgr.bufTable i).Holds file (s₀.mgr.bufTable i).pageNo := ⟨valid,named,rfl⟩
  have within : ∀ j, j < i + 1 → j = i ∨ j < i := by omega
  obtain ⟨sound',found'⟩ := BufHashTbl.remove_spec hash file (s₀.mgr.bufTable i).pageNo progress.sound
  rw [mgr,same]
  constructor
  case sound => exact sound'
  case size => exact progress.size
  case pool => exact progress.pool
  case released =>
    intro j below ours
    rcases within j below with rfl | earlier
    · exact BufMgr.setDesc_same _ _ _
    · rw [BufMgr.setDesc_other _ _ (by omega)]
      exact progress.released j earlier ours
  case kept =>
    intro j outside
    have other : j ≠ i := by
      intro same
      subst same
      rcases outside with later | foreign
      · omega
      · exact foreign named
    rw [BufMgr.setDesc_other _ _ other]
    refine progress.kept j ?_
    rcases outside with later | foreign
    · exact .inl (by omega)
    · exact .inr foreign
  case dropped =>
    intro j q below holds
    refine (found' file q).trans ?_
    by_cases this : (file,q) = (file,(s₀.mgr.bufTable i).pageNo)
    · rw [if_pos this]
    · rw [if_neg this]
      rcases within j below with rfl | earlier
      · rw [holds.2.2] at this
        exact absurd rfl this
      · exact progress.dropped j q earlier holds
  case entries =>
    intro g q absent
    refine (found' g q).trans ?_
    rw [if_neg]
    · exact progress.entries g q fun ours j below => absent ours j (by omega)
    · intro this
      cases this
      exact absent rfl i (Nat.lt_succ_self i) here
  case others =>
    intro g foreign
    exact (others g foreign).trans (progress.others g foreign)
  case unwritten =>
    intro q page there clean
    refine stays q page (progress.unwritten q page there fun j below => clean j (by omega)) fun this => ?_
    exact clean i (Nat.lt_succ_self i) ⟨valid,named,this.symm⟩
  case written =>
    intro j q below holds dirty
    by_cases last : (s₀.mgr.bufTable i).Holds file q ∧ (s₀.mgr.bufTable i).dirty = true
    · refine ⟨i,Nat.lt_succ_self i,last.1,last.2,?_⟩
      rw [← last.1.2.2]
      exact stored last.2
    · rcases within j below with rfl | earlier
      · exact absurd ⟨holds,dirty⟩ last
      · obtain ⟨k,inside,holder,modified,there⟩ := progress.written j q earlier holds dirty
        refine ⟨k,by omega,holder,modified,stays q _ there fun this => ?_⟩
        exact Bool.eq_false_iff.mpr fun dirty' => last ⟨⟨valid,named,this.symm⟩,dirty'⟩

-- The same of a dirty frame whose page has been written.
theorem Progress.save {s₀ : Storage} {io : Io} {f' : UnixFile} (progress : Progress hash file i s₀ s)
    (named : (s₀.mgr.bufTable i).file = some file) (valid : (s₀.mgr.bufTable i).valid = true)
    (dirty : (s₀.mgr.bufTable i).dirty = true)
    (accepted : File.writePage io (s.disk file) (s₀.mgr.bufTable i).pageNo (s.mgr.bufPool i) = (.ok,f')) :
    Progress hash file (i+1) s₀
      ⟨(s.mgr.setTable (s.mgr.hashTable.remove hash file (s.mgr.bufTable i).pageNo).2).setDesc i
      (s.mgr.bufTable i).released,Function.update s.disk file f'⟩ := by
  refine progress.release {s with disk := Function.update s.disk file f'} named valid rfl (fun g foreign =>
    Function.update_of_ne foreign ..) ?_ ?_
  · intro q page there clean
    dsimp only
    rw [Function.update_self]
    refine File.at_writePage_other there ?_ accepted
    intro this
    rw [clean this] at dirty
    cases dirty
  · intro _
    dsimp only
    rw [Function.update_self,← progress.pool]
    exact File.at_writePage_same accepted

theorem Progress.skip {s₀ : Storage} (progress : Progress hash file i s₀ s)
    (foreign : (s₀.mgr.bufTable i).file ≠ some file) :
    Progress hash file (i+1) s₀ s := by
  have within : ∀ {j}, j < i + 1 → (s₀.mgr.bufTable j).file = some file → j < i := by
    intro j below ours
    rcases Nat.lt_or_eq_of_le (Nat.le_of_lt_succ below) with earlier | rfl
    · exact earlier
    · exact absurd ours foreign
  constructor
  case sound => exact progress.sound
  case size => exact progress.size
  case pool => exact progress.pool
  case released => exact fun j below ours => progress.released j (within below ours) ours
  case kept =>
    intro j outside
    refine progress.kept j ?_
    rcases outside with later | other
    · exact .inl (by omega)
    · exact .inr other
  case dropped => exact fun j q below holds => progress.dropped j q (within below holds.2.1) holds
  case entries => exact fun g q absent => progress.entries g q fun ours j below => absent ours j (by omega)
  case others => exact progress.others
  case unwritten => exact fun q page there clean => progress.unwritten q page there fun j below => clean j (by omega)
  case written =>
    intro j q below holds dirty
    obtain ⟨k,inside,rest⟩ := progress.written j q (within below holds.2.1) holds dirty
    exact ⟨k,by omega,rest⟩

-- Where flushFile ends: behind the last frame, or at the first frame that it does not get past.
structure Ends (io : Faults) (file : FileId) (s : Storage) (j : Nat) (status : Status) : Prop where
  passed : ∀ k, k < j → Passes io file (s.mgr.bufTable k)
  ended : status = .ok → j = s.mgr.numBufs
  stuck : status ≠ .ok → j < s.mgr.numBufs ∧ (s.mgr.bufTable j).file = some file ∧ ¬ Passes io file (s.mgr.bufTable j)
  pinned : status = .pagePinned ↔
    j < s.mgr.numBufs ∧ (s.mgr.bufTable j).file = some file ∧ (s.mgr.bufTable j).valid = true ∧
      (s.mgr.bufTable j).pinCnt > 0

theorem Ends.stopped {j : Nat} {status : Status} (passed : ∀ k, k < j → Passes io file (s.mgr.bufTable k))
    (inside : j < s.mgr.numBufs)
    (ours : (s.mgr.bufTable j).file = some file) (stops : ¬ Passes io file (s.mgr.bufTable j)) (failed : status ≠ .ok)
    (pinned : status = .pagePinned ↔ (s.mgr.bufTable j).valid = true ∧ (s.mgr.bufTable j).pinCnt > 0) :
    Ends io file s j status where
  passed := passed
  ended := fun ok => absurd ok failed
  stuck := fun _ => ⟨inside,ours,stops⟩
  pinned := pinned.trans ⟨fun both => ⟨inside,ours,both⟩,fun all => all.2.2⟩

theorem flushFrames_ends (turns : Nat) {s₀ : Storage} (progress : Progress hash file i s₀ s)
    (passed : ∀ k, k < i → Passes io file (s₀.mgr.bufTable k)) (reach : i + turns = s₀.mgr.numBufs) :
    ∃ j, Progress hash file j s₀ (flushFrames hash io file turns i s).2 ∧
      Ends io file s₀ j (flushFrames hash io file turns i s).1 := by
  induction turns generalizing i s with
  | zero =>
    refine ⟨i,progress,passed,fun _ => reach,fun failed => absurd rfl failed,?_⟩
    constructor
    · intro none
      cases none
    · intro inside
      omega
  | succ turns ih =>
    have same : s.mgr.bufTable i = s₀.mgr.bufTable i := progress.kept i (.inl (Nat.le_refl i))
    have inside : i < s₀.mgr.numBufs := by omega
    have more : Passes io file (s₀.mgr.bufTable i) → ∀ k, k < i + 1 → Passes io file (s₀.mgr.bufTable k) := by
      intro this k below
      rcases Nat.lt_or_eq_of_le (Nat.le_of_lt_succ below) with earlier | rfl
      · exact passed k earlier
      · exact this
    unfold flushFrames
    dsimp only
    rw [same]
    by_cases ours : (s₀.mgr.bufTable i).file = some file
    · by_cases valid : (s₀.mgr.bufTable i).valid = true
      · rw [if_pos ⟨valid,ours⟩]
        by_cases busy : (s₀.mgr.bufTable i).pinCnt > 0
        · rw [if_pos busy]
          have failed : Status.pagePinned ≠ .ok := Status.noConfusion
          exact ⟨i,progress,.stopped passed inside ours (fun passes => (passes ours).2.1 busy) failed
            (iff_of_true rfl ⟨valid,busy⟩)⟩
        · rw [if_neg busy]
          by_cases dirty : (s₀.mgr.bufTable i).dirty = true
          · rw [if_pos dirty]
            have holds : (s.mgr.bufTable i).Holds file (s₀.mgr.bufTable i).pageNo := by
              rw [same]
              exact ⟨valid,ours,rfl⟩
            by_cases works : 1 ≤ (s₀.mgr.bufTable i).pageNo ∧ (io file).write (s₀.mgr.bufTable i).pageNo = false
            · obtain ⟨f',accepted,wrote⟩ := writeFrame_holds io holds works.1 works.2
              rw [wrote]
              dsimp only
              rw [if_neg (not_not.mpr rfl)]
              have saved := progress.save ours valid dirty accepted
              rw [same] at saved
              exact ih saved (more fun _ => ⟨valid,busy,fun _ => works⟩) (by omega)
            · -- The write fails, and the frame stays as it is.
              obtain ⟨status,refused,failed,unpinned⟩ := writeFrame_refused io holds works
              rw [refused]
              dsimp only
              rw [if_pos failed]
              exact ⟨i,progress,.stopped passed inside ours (fun passes => works ((passes ours).2.2 dirty)) failed
                (iff_of_false unpinned fun pinned => busy pinned.2)⟩
          · rw [if_neg dirty]
            dsimp only
            rw [if_neg (not_not.mpr rfl)]
            refine ih ?_ (more fun _ => ⟨valid,busy,fun modified => absurd modified dirty⟩) (by omega)
            have released := progress.release s ours valid rfl (fun _ _ => rfl) (fun _ _ there _ => there)
              fun modified => absurd modified dirty
            rw [same] at released
            exact released
      · rw [if_neg fun both => valid both.1,if_pos ⟨valid,ours⟩]
        have failed : Status.badBuffer ≠ .ok := Status.noConfusion
        have other : Status.badBuffer ≠ .pagePinned := Status.noConfusion
        exact ⟨i,progress,.stopped passed inside ours (fun passes => valid (passes ours).1) failed
          (iff_of_false other fun pinned => valid pinned.1)⟩
    · rw [if_neg fun both => ours both.2,if_neg fun both => ours both.2]
      exact ih (progress.skip ours) (more fun named => absurd named ours) (by omega)

theorem flushFile_ends (io : Faults) (file : FileId) (sound : Sound s.mgr.hashTable.ht) :
    ∃ j, Progress hash file j s (s.flushFile hash io file).2 ∧ Ends io file s j (s.flushFile hash io file).1 := by
  refine flushFrames_ends s.mgr.numBufs (Progress.start sound) ?_ (Nat.zero_add _)
  intro k below
  omega

end Storage

-- The hash table maps a page to the frame that holds it, and to nothing else.
structure Mapped (hash : Hash) (m : BufMgr) : Prop where
  sound : Sound m.hashTable.ht
  index : ∀ file pageNo i, m.hashTable.find hash file pageNo = some i ↔ i < m.numBufs ∧ (m.bufTable i).Holds file pageNo
  invalid : ∀ i, i < m.numBufs → (m.bufTable i).valid = false → (m.bufTable i).file = none

-- File::writePage works on every page that has to be written.
def WritesSucceed (io : Faults) (m : BufMgr) : Prop :=
  ∀ i file pageNo, i < m.numBufs → (m.bufTable i).Holds file pageNo → (m.bufTable i).dirty = true →
    1 ≤ pageNo ∧ (io file).write pageNo = false

-- What a client reads of a page, from the pool or from the disk.
def Storage.reads (hash : Hash) (s : Storage) (file : FileId) (pageNo : Int) : Option Page :=
  match s.mgr.hashTable.find hash file pageNo with
  | some i => some (s.mgr.bufPool i)
  | none => File.at? (s.disk file) pageNo

def Storage.Pinned (s : Storage) (file : FileId) : Prop :=
  ∃ i, i < s.mgr.numBufs ∧ (s.mgr.bufTable i).file = some file ∧ (s.mgr.bufTable i).pinCnt > 0

-- Frames, hash entries and disk pages of the other files are what they were.
structure OthersKept (hash : Hash) (file : FileId) (s s' : Storage) : Prop where
  frames : ∀ i g, (s.mgr.bufTable i).file = some g → g ≠ file →
    s'.mgr.bufTable i = s.mgr.bufTable i ∧ s'.mgr.bufPool i = s.mgr.bufPool i
  entries : ∀ g q, g ≠ file → s'.mgr.hashTable.find hash g q = s.mgr.hashTable.find hash g q
  disk : ∀ g, g ≠ file → s'.disk g = s.disk g

-- Nothing of the file is left in the pool, and what was dirty is on the disk.
structure Emptied (hash : Hash) (file : FileId) (s s' : Storage) : Prop where
  frames : ∀ i, i < s.mgr.numBufs → (s'.mgr.bufTable i).file ≠ some file
  entries : ∀ q, s'.mgr.hashTable.find hash file q = none
  stored : ∀ i q, i < s.mgr.numBufs → (s.mgr.bufTable i).Holds file q → (s.mgr.bufTable i).dirty = true →
    File.at? (s'.disk file) q = some (s.mgr.bufPool i)

namespace Mapped

variable {m : BufMgr} {pageNo : Int}

theorem valid_of_file (mapped : Mapped hash m) (inside : i < m.numBufs) (named : (m.bufTable i).file = some file) :
    (m.bufTable i).valid = true := by
  by_contra invalid
  rw [mapped.invalid i inside (Bool.eq_false_iff.mpr invalid)] at named
  cases named

theorem alone (mapped : Mapped hash m) {j : Nat} (inside : i < m.numBufs) (within : j < m.numBufs)
    (one : (m.bufTable i).Holds file pageNo) (two : (m.bufTable j).Holds file pageNo) : i = j :=
  Option.some.inj (((mapped.index file pageNo i).mpr ⟨inside,one⟩).symm.trans
    ((mapped.index file pageNo j).mpr ⟨within,two⟩))

end Mapped

namespace Storage

variable {j : Nat}

-- In a mapped pool only a pinned frame stops flushFile.
theorem Ends.mapped {status : Status} (mapped : Mapped hash s.mgr) (writes : WritesSucceed io s.mgr)
    (ends : Ends io file s j status) :
    (status = .ok ∧ j = s.mgr.numBufs ∧ ¬ s.Pinned file) ∨
    (status = .pagePinned ∧ j < s.mgr.numBufs ∧ s.Pinned file) := by
  by_cases ok : status = .ok
  · have done := ends.ended ok
    refine .inl ⟨ok,done,?_⟩
    intro pinned
    obtain ⟨i,inside,named,busy⟩ := pinned
    exact (ends.passed i (by omega) named).2.1 busy
  · obtain ⟨inside,named,stops⟩ := ends.stuck ok
    have valid := mapped.valid_of_file inside named
    have busy : (s.mgr.bufTable j).pinCnt > 0 := by
      by_contra quiet
      exact stops fun _ => ⟨valid,quiet,fun dirty => writes j file _ inside ⟨valid,named,rfl⟩ dirty⟩
    exact .inr ⟨ends.pinned.mpr ⟨inside,named,valid,busy⟩,inside,j,inside,named,busy⟩

theorem Progress.othersKept (progress : Progress hash file j s s') : OthersKept hash file s s' where
  frames := by
    intro i g named other
    have foreign : (s.mgr.bufTable i).file ≠ some file := by
      rw [named]
      intro same
      exact other (Option.some.inj same)
    exact ⟨progress.kept i (.inr foreign),by rw [progress.pool]⟩
  entries := fun g q other => progress.entries g q fun same => absurd same other
  disk := progress.others

theorem Progress.mapped (mapped : Mapped hash s.mgr) (progress : Progress hash file j s s')
    (below : j ≤ s.mgr.numBufs) :
    Mapped hash s'.mgr where
  sound := progress.sound
  index := by
    intro g q i
    rw [progress.size]
    by_cases gone : g = file ∧ ∃ k, k < j ∧ (s.mgr.bufTable k).Holds file q
    · obtain ⟨rfl,k,earlier,holds⟩ := gone
      rw [progress.dropped k q earlier holds]
      constructor
      · intro none
        cases none
      · intro held
        -- Only frame k held the page, and it has been given up.
        obtain ⟨inside,held⟩ := held
        by_cases early : i < j ∧ (s.mgr.bufTable i).file = some g
        · rw [progress.released i early.1 early.2] at held
          cases held.1
        · have untouched : s'.mgr.bufTable i = s.mgr.bufTable i := by
            refine progress.kept i ?_
            by_cases late : j ≤ i
            · exact .inl late
            · exact .inr fun named => early ⟨by omega,named⟩
          rw [untouched] at held
          have same := mapped.alone inside (by omega) held holds
          subst same
          exact absurd ⟨earlier,holds.2.1⟩ early
    · have stays := progress.entries g q fun same k earlier holds => gone ⟨same,k,earlier,holds⟩
      rw [stays,mapped.index g q i]
      by_cases early : i < j ∧ (s.mgr.bufTable i).file = some file
      · rw [progress.released i early.1 early.2]
        constructor
        · intro held
          obtain ⟨inside,valid,named,number⟩ := held
          cases named.symm.trans early.2
          exact absurd ⟨rfl,i,early.1,valid,named,number⟩ gone
        · intro held
          cases held.2.1
      · rw [progress.kept i]
        by_cases late : j ≤ i
        · exact .inl late
        · exact .inr fun named => early ⟨by omega,named⟩
  invalid := by
    intro i inside invalid
    rw [progress.size] at inside
    by_cases early : i < j ∧ (s.mgr.bufTable i).file = some file
    · rw [progress.released i early.1 early.2]
      rfl
    · have untouched : s'.mgr.bufTable i = s.mgr.bufTable i := by
        refine progress.kept i ?_
        by_cases late : j ≤ i
        · exact .inl late
        · exact .inr fun named => early ⟨by omega,named⟩
      rw [untouched] at invalid ⊢
      exact mapped.invalid i inside invalid

theorem Progress.emptied (mapped : Mapped hash s.mgr) (progress : Progress hash file s.mgr.numBufs s s') :
    Emptied hash file s s' where
  frames := by
    intro i inside
    by_cases ours : (s.mgr.bufTable i).file = some file
    · rw [progress.released i inside ours]
      intro none
      cases none
    · rw [progress.kept i (.inr ours)]
      exact ours
  entries := by
    intro q
    cases found : s.mgr.hashTable.find hash file q with
    | none =>
      refine (progress.entries file q fun _ k below holds => ?_).trans found
      rw [(mapped.index file q k).mpr ⟨below,holds⟩] at found
      cases found
    | some i =>
      obtain ⟨inside,holds⟩ := (mapped.index file q i).mp found
      exact progress.dropped i q inside holds
  stored := by
    intro i q inside holds dirty
    obtain ⟨k,below,holder,_,there⟩ := progress.written i q inside holds dirty
    rw [mapped.alone inside below holds holder]
    exact there

-- A page is read as before, unless a clean frame that did not agree with the disk was given up.
theorem Progress.reads (mapped : Mapped hash s.mgr) (progress : Progress hash file j s s') (below : j ≤ s.mgr.numBufs)
    {q : Int} {page : Page}
    (read : s.reads hash file q = some page)
    (agrees : ∀ i, s.mgr.hashTable.find hash file q = some i → (s.mgr.bufTable i).dirty = true ∨
      File.at? (s.disk file) q = some (s.mgr.bufPool i)) :
    s'.reads hash file q = some page := by
  unfold Storage.reads at read ⊢
  by_cases gone : ∃ k, k < j ∧ (s.mgr.bufTable k).Holds file q
  · obtain ⟨k,early,holds⟩ := gone
    have inside : k < s.mgr.numBufs := by omega
    have found := (mapped.index file q k).mpr ⟨inside,holds⟩
    rw [progress.dropped k q early holds]
    rw [found] at read
    dsimp only at read ⊢
    by_cases dirty : (s.mgr.bufTable k).dirty = true
    · obtain ⟨k',early',holds',_,there⟩ := progress.written k q early holds dirty
      rw [there,← mapped.alone inside (by omega) holds holds']
      exact read
    · have stored := (agrees k found).resolve_left dirty
      refine progress.unwritten q page (stored.trans read) fun k' early' holds' => ?_
      rw [← mapped.alone inside (by omega) holds holds']
      exact Bool.eq_false_iff.mpr dirty
  · have absent : ∀ k, k < j → ¬ (s.mgr.bufTable k).Holds file q := fun k early holds => gone ⟨k,early,holds⟩
    rw [progress.entries file q fun _ => absent]
    cases found : s.mgr.hashTable.find hash file q with
    | some i =>
      rw [found] at read
      dsimp only at read ⊢
      rw [progress.pool]
      exact read
    | none =>
      rw [found] at read
      exact progress.unwritten q page read fun k early holds => absurd holds (absent k early)

end Storage
end anyHash

namespace Stage6

-- flushFile empties the pool of the file exactly when none of its frames is pinned, and leaves the
-- other files alone. When it stops, a page reads as before if its frame was dirty or agreed with the disk.
theorem flushFile_exact (io : Faults) (s : Storage) (file : FileId) (mapped : Mapped hash s.mgr)
    (writes : WritesSucceed io s.mgr) :
    ((flushFile io s file).1 = .ok ↔ ¬ s.Pinned file) ∧
    ((flushFile io s file).1 = .pagePinned ↔ s.Pinned file) ∧
    ((flushFile io s file).1 = .ok → Emptied hash file s (flushFile io s file).2) ∧
    ((flushFile io s file).1 = .pagePinned → ∀ pageNo page, s.reads hash file pageNo = some page →
      (∀ i, s.mgr.hashTable.find hash file pageNo = some i →
        (s.mgr.bufTable i).dirty = true ∨ File.at? (s.disk file) pageNo = some (s.mgr.bufPool i)) →
      (flushFile io s file).2.reads hash file pageNo = some page) ∧
    OthersKept hash file s (flushFile io s file).2 ∧ Mapped hash (flushFile io s file).2.mgr := by
  obtain ⟨j,progress,ends⟩ := Storage.flushFile_ends io file mapped.sound
  change Storage.Progress hash file j s (flushFile io s file).2 at progress
  change Storage.Ends io file s j (flushFile io s file).1 at ends
  generalize flushFile io s file = result at progress ends ⊢
  obtain ⟨status,s'⟩ := result
  dsimp only at *
  have apart : Status.ok ≠ .pagePinned := Status.noConfusion
  rcases ends.mapped mapped writes with ⟨rfl,rfl,quiet⟩ | ⟨rfl,below,pinned⟩
  · refine ⟨iff_of_true rfl quiet,iff_of_false apart quiet,fun _ => progress.emptied mapped,fun none =>
      absurd none apart,
      progress.othersKept,progress.mapped mapped (Nat.le_refl _)⟩
  · refine ⟨iff_of_false apart.symm (not_not.mpr pinned),iff_of_true rfl pinned,fun none => absurd none apart.symm,?_,
      progress.othersKept,progress.mapped mapped (Nat.le_of_lt below)⟩
    exact fun _ q page read agrees => progress.reads mapped (Nat.le_of_lt below) read agrees

-- Page 1 is in frame 0, clean, with bytes that the disk does not have; page 2 is pinned in frame 1.
def staleMgr : BufMgr :=
  let empty := BufMgr.init 2
  let one := (empty.hashTable.insert hash 0 1 0).2
  {empty with
    hashTable := (one.insert hash 0 2 1).2
    bufTable := fun i => if i = 0 then ⟨some 0,1,0,0,false,true,true⟩ else ⟨some 0,2,1,1,false,true,true⟩
    bufPool := fun _ _ => 1}

def staleStorage : Storage := ⟨staleMgr,fun _ => List.replicate 3 (ByteMemory.zero 1024)⟩

theorem staleMgr_mapped : Mapped hash staleMgr := by
  have nothing : BucketTable.Sound (BufHashTbl.init 3).ht := fun _ => List.nodup_nil
  obtain ⟨t₁,inserted₁,sound₁,found₁⟩ := BufHashTbl.insert_spec hash 0 nothing
    (show (BufHashTbl.init 3).find hash 0 1 = none from rfl)
  have missing : t₁.find hash 0 2 = none := (found₁ 0 2).trans rfl
  obtain ⟨t₂,inserted₂,sound₂,found₂⟩ := BufHashTbl.insert_spec hash 1 sound₁ missing
  have table : staleMgr.hashTable = t₂ := by
    change (((BufHashTbl.init 3).insert hash 0 1 0).2.insert hash 0 2 1).2 = t₂
    rw [inserted₁]
    dsimp only
    rw [inserted₂]
  constructor
  case sound =>
    rw [table]
    exact sound₂
  case index =>
    intro file pageNo i
    rw [table,found₂,found₁]
    change _ ↔ i < 2 ∧ BufDesc.Holds (if i = 0 then ⟨some 0,1,0,0,false,true,true⟩ else ⟨some 0,2,1,1,false,true,true⟩)
      file pageNo
    have nowhere : (BufHashTbl.init 3).find hash file pageNo = none := rfl
    rw [nowhere]
    unfold BufDesc.Holds
    split
    · grind
    · split <;> grind
  case invalid =>
    intro i _ invalid
    change (if i = 0 then (⟨some 0,1,0,0,false,true,true⟩ : BufDesc) else ⟨some 0,2,1,1,false,true,true⟩).valid =
      false at invalid
    split at invalid <;> cases invalid

theorem staleMgr_clean (i : Nat) : (staleMgr.bufTable i).dirty = false := by
  change (if i = 0 then (⟨some 0,1,0,0,false,true,true⟩ : BufDesc) else ⟨some 0,2,1,1,false,true,true⟩).dirty = false
  split <;> rfl

theorem staleMgr_written (io : Faults) : WritesSucceed io staleMgr := by
  intro i _ _ _ _ dirty
  rw [staleMgr_clean] at dirty
  cases dirty

theorem flushFile_exact_stale : ((flushFile (fun _ => .working) staleStorage 0).1 = .pagePinned ↔
    staleStorage.Pinned 0) ∧
    Mapped hash (flushFile (fun _ => .working) staleStorage 0).2.mgr := by
  have exact := flushFile_exact (fun _ => .working) staleStorage 0 staleMgr_mapped (staleMgr_written _)
  exact ⟨exact.2.1,exact.2.2.2.2.2⟩

-- The clean frame is given up before the pinned one is met, and page 1 reads as the disk has it.
theorem stopped_flush_changes_page : ¬ ∀ (io : Faults) (s : Storage) (file : FileId), Mapped hash s.mgr →
    WritesSucceed io s.mgr →
    (flushFile io s file).1 = .pagePinned → ∀ pageNo page, s.reads hash file pageNo = some page →
      (flushFile io s file).2.reads hash file pageNo = some page := by
  intro always
  have same := always (fun _ => .working) staleStorage 0 staleMgr_mapped (staleMgr_written _) (by decide) 1
    (fun _ => 1) rfl
  have byte := congrArg (Option.map fun page : Page => page 0) same
  revert byte
  decide

end Stage6
end Minirel
