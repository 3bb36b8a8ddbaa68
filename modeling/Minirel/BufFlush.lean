import Minirel.BufCoherence

namespace Minirel
open BucketTable

variable {hash : Hash} {last : Contents} {pins : List Pin}

namespace Storage

theorem writeFrame_header (io : Faults) (s : Storage) (i : Nat) (file : FileId) :
    File.header ((s.writeFrame io i).2.disk file) = File.header (s.disk file) := by
  unfold writeFrame
  cases (s.mgr.bufTable i).file with
  | none => rfl
  | some g =>
    dsimp only
    rcases eq_or_ne file g with rfl | other
    · rw [Function.update_self,File.header_writePage]
    · rw [Function.update_of_ne other]

theorem flushFrames_header (hash : Hash) (io : Faults) (ours : FileId) (turns i : Nat) (s : Storage) (file : FileId) :
    File.header ((s.flushFrames hash io ours turns i).2.disk file) = File.header (s.disk file) := by
  induction turns generalizing i s with
  | zero => rfl
  | succ turns ih =>
    unfold flushFrames
    dsimp only
    split
    · split
      · rfl
      · have kept : File.header ((if (s.mgr.bufTable i).dirty = true then s.writeFrame io i else (.ok,s)).2.disk file) =
            File.header (s.disk file) := by
          split
          · exact writeFrame_header io s i file
          · rfl
        generalize (if (s.mgr.bufTable i).dirty = true then s.writeFrame io i else (.ok,s)) = written at kept ⊢
        split
        · exact kept
        · exact (ih _ _).trans kept
    · split
      · rfl
      · exact ih _ _

theorem writeFrame_ok {s s' : Storage} {io : Faults} {i : Nat} {file : FileId} {pageNo : Int}
    (inv : Consistent hash s.mgr s.disk last pins) (inside : i < s.mgr.numBufs)
    (holds : (s.mgr.bufTable i).Holds file pageNo)
    (written : s.writeFrame io i = (.ok,s')) :
    s'.mgr = s.mgr ∧ Consistent hash s.mgr s'.disk last pins ∧ File.at? (s'.disk file) pageNo = last file pageNo ∧
      ∀ g q, ¬ (g = file ∧ q = pageNo) → File.at? (s'.disk g) q = File.at? (s.disk g) q := by
  unfold writeFrame at written
  rw [holds.2.1,holds.2.2] at written
  dsimp only at written
  cases result : File.writePage (io file) (s.disk file) pageNo (s.mgr.bufPool i) with
  | mk status unixFile =>
    rw [result] at written
    cases written
    exact ⟨rfl,inv.write inside holds result⟩

theorem writeFrame_works {s : Storage} {io : Faults} {i : Nat} {file : FileId}
    (named : (s.mgr.bufTable i).file = some file)
    (low : 1 ≤ (s.mgr.bufTable i).pageNo) (works : (io file).write (s.mgr.bufTable i).pageNo = false) :
    (s.writeFrame io i).1 = .ok := by
  unfold writeFrame
  rw [named]
  dsimp only
  rw [File.writePage,if_neg (by omega),File.intwrite,if_neg]
  rw [works]
  rintro (broken | negative)
  · cases broken
  · omega

theorem writeFrame_failed {s s' : Storage} {io : Faults} {i : Nat} {status : Status}
    (written : s.writeFrame io i = (status,s')) (failed : status ≠ .ok) : s' = s := by
  unfold writeFrame at written
  cases named : (s.mgr.bufTable i).file with
  | none => rw [named] at written; cases written; rfl
  | some file =>
    rw [named] at written
    dsimp only at written
    cases result : File.writePage (io file) (s.disk file) (s.mgr.bufTable i).pageNo (s.mgr.bufPool i) with
    | mk outcome unixFile =>
      rw [result] at written
      cases written
      rw [File.writePage_failed result failed,Function.update_eq_self]

-- What flushFile does to one frame of the file: the page reaches the disk and the frame is free.
theorem release_frame {s s' : Storage} {io : Faults} {i : Nat} {file : FileId} {pageNo : Int}
    (inv : Consistent hash s.mgr s.disk last pins) (inside : i < s.mgr.numBufs)
    (holds : (s.mgr.bufTable i).Holds file pageNo)
    (unpinned : (s.mgr.bufTable i).pinCnt = 0)
    (written : (if (s.mgr.bufTable i).dirty then s.writeFrame io i else (.ok,s)) = (.ok,s')) {d : BufDesc}
    (idle : d.Idle)
    (numbered : d.frameNo = i) :
    s'.mgr = s.mgr ∧
      Consistent hash ((s.mgr.setTable (s.mgr.hashTable.remove hash file pageNo).2).setDesc i d) s'.disk last pins := by
  by_cases dirty : (s.mgr.bufTable i).dirty = true
  · rw [if_pos dirty] at written
    obtain ⟨same,inv',there,_⟩ := writeFrame_ok inv inside holds written
    exact ⟨same,inv'.vacate inside holds unpinned (fun _ => there) idle numbered⟩
  · rw [if_neg dirty] at written
    cases written
    refine ⟨rfl,inv.vacate inside holds unpinned (fun _ => ?_) idle numbered⟩
    have clean := (inv.used inside holds).clean (Bool.eq_false_iff.mpr dirty)
    rw [holds.2.2] at clean
    exact (clean fun pin member on => absurd on (inv.pins_zero inside holds unpinned pin member)).2

structure Flushed (hash : Hash) (file : FileId) (i : Nat) (s : Storage) (status : Status) (s' : Storage)
    (last : Contents)
    (pins : List Pin) : Prop where
  consistent : Consistent hash s'.mgr s'.disk last pins
  size : s'.mgr.numBufs = s.mgr.numBufs
  before : ∀ j, j < i → s'.mgr.bufTable j = s.mgr.bufTable j
  gone : status = .ok → ∀ j, i ≤ j → j < s.mgr.numBufs → (s'.mgr.bufTable j).file ≠ some file

theorem flushFrames_spec (file : FileId) (io : Faults) (turns i : Nat) (s : Storage) (reach : i + turns = s.mgr.numBufs)
    (inv : Consistent hash s.mgr s.disk last pins) :
    Flushed hash file i s (flushFrames hash io file turns i s).1 (flushFrames hash io file turns i s).2 last pins := by
  induction turns generalizing i s with
  | zero => exact ⟨inv,rfl,fun _ _ => rfl,fun _ j _ _ => by omega⟩
  | succ turns ih =>
    have inside : i < s.mgr.numBufs := by omega
    unfold flushFrames
    dsimp only
    by_cases ours : (s.mgr.bufTable i).valid = true ∧ (s.mgr.bufTable i).file = some file
    · rw [if_pos ours]
      have holds : (s.mgr.bufTable i).Holds file (s.mgr.bufTable i).pageNo := ⟨ours.1,ours.2,rfl⟩
      have count := (inv.used inside holds).pinned
      by_cases busy : (s.mgr.bufTable i).pinCnt > 0
      · rw [if_pos busy]
        exact ⟨inv,rfl,fun _ _ => rfl,fun done => by cases done⟩
      · rw [if_neg busy]
        cases written : (if (s.mgr.bufTable i).dirty = true then s.writeFrame io i else (.ok,s)) with
        | mk status s' =>
          by_cases failed : status ≠ .ok
          · rw [if_pos failed]
            have same : s' = s := by
              split at written
              · exact writeFrame_failed written failed
              · cases written; rfl
            rw [same]
            exact ⟨inv,rfl,fun _ _ => rfl,fun done => absurd done failed⟩
          · rw [if_neg failed]
            cases not_not.mp failed
            obtain ⟨same,inv'⟩ := release_frame inv inside holds (by omega) written
              (d:={s.mgr.bufTable i with dirty := false, file := none, pageNo := -1, valid := false})
              ⟨rfl,rfl,rfl,by dsimp only; omega⟩ (inv.frames i inside).frameNo
            dsimp only
            rw [same]
            obtain ⟨consistent,size,before,gone⟩ := ih (i+1)
              ⟨(s.mgr.setTable (s.mgr.hashTable.remove hash file (s.mgr.bufTable i).pageNo).2).setDesc i
                {s.mgr.bufTable i with dirty := false, file := none, pageNo := -1, valid := false},s'.disk⟩
              (by change i + 1 + turns = s.mgr.numBufs; omega) inv'
            refine ⟨consistent,size,fun j earlier => ?_,fun done j from_i below => ?_⟩
            · rw [before j (by omega)]
              exact BufMgr.setDesc_other _ _ (by omega)
            · rcases Nat.lt_or_eq_of_le from_i with later | rfl
              · exact gone done j later below
              · rw [before i (by omega),BufMgr.setDesc_same]
                exact fun none => by cases none
    · have stray : ¬ (¬ (s.mgr.bufTable i).valid = true ∧ (s.mgr.bufTable i).file = some file) := by
        rintro ⟨invalid,named⟩
        cases ((inv.frames i inside).idle (Bool.eq_false_iff.mpr invalid)).file.symm.trans named
      rw [if_neg ours,if_neg stray]
      obtain ⟨consistent,size,before,gone⟩ := ih (i+1) s (by omega) inv
      refine ⟨consistent,size,fun j earlier => before j (by omega),fun done j from_i below => ?_⟩
      rcases Nat.lt_or_eq_of_le from_i with later | rfl
      · exact gone done j later below
      · rw [before i (by omega)]
        intro named
        by_cases valid : (s.mgr.bufTable i).valid = true
        · exact ours ⟨valid,named⟩
        · exact stray ⟨valid,named⟩

theorem flushFile_header (hash : Hash) (io : Faults) (ours : FileId) (s : Storage) (file : FileId) :
    File.header ((s.flushFile hash io ours).2.disk file) = File.header (s.disk file) := flushFrames_header ..

theorem flushFile_consistent {file : FileId} {io : Faults} {s : Storage}
    (inv : Consistent hash s.mgr s.disk last pins) :
    Consistent hash (s.flushFile hash io file).2.mgr (s.flushFile hash io file).2.disk last pins :=
  (flushFrames_spec file io s.mgr.numBufs 0 s (Nat.zero_add _) inv).consistent

theorem flushFile_stored {file : FileId} {io : Faults} {s s' : Storage} (inv : Consistent hash s.mgr s.disk last pins)
    (flushed : s.flushFile hash io file = (.ok,s')) (pageNo : Int) (low : 1 ≤ pageNo) :
    File.at? (s'.disk file) pageNo = last file pageNo := by
  obtain ⟨consistent,size,_,gone⟩ := flushFrames_spec file io s.mgr.numBufs 0 s (Nat.zero_add _) inv
  change s.flushFrames hash io file s.mgr.numBufs 0 = (.ok,s') at flushed
  rw [flushed] at consistent size gone
  apply consistent.away file pageNo low
  cases found : s'.mgr.hashTable.find hash file pageNo with
  | none => rfl
  | some i =>
    obtain ⟨inside,holds⟩ := consistent.found found
    exact absurd holds.2.1 (gone rfl i (Nat.zero_le _) (lt_of_lt_of_eq inside size))

-- Every page the destructor has come to is on the disk; it has touched no other.
theorem closeFrames_spec {s : Storage} {io : Faults} (inv : Consistent hash s.mgr s.disk last pins)
    (works : ∀ file pageNo, (io file).write pageNo = false) (turns : Nat) (few : turns ≤ s.mgr.numBufs) :
    (closeFrames io turns s).mgr = s.mgr ∧ Consistent hash s.mgr (closeFrames io turns s).disk last pins ∧
      ∀ i file pageNo, i < turns → (s.mgr.bufTable i).Holds file pageNo → (s.mgr.bufTable i).dirty = true → 1 ≤ pageNo →
        File.at? ((closeFrames io turns s).disk file) pageNo = last file pageNo := by
  induction turns with
  | zero => exact ⟨rfl,inv,fun _ _ _ none => by omega⟩
  | succ turns ih =>
    obtain ⟨same,inv',done⟩ := ih (by omega)
    unfold closeFrames
    generalize closeFrames io turns s = s₁ at same inv' done ⊢
    dsimp only
    rw [same]
    have others : ∀ i, i < turns + 1 → i ≠ turns → i < turns := by omega
    by_cases goes : (s.mgr.bufTable turns).valid = true ∧ (s.mgr.bufTable turns).dirty = true
    · rw [if_pos goes]
      obtain ⟨file,named,use⟩ := (inv'.frames turns few).used goes.1
      have holds : (s.mgr.bufTable turns).Holds file (s.mgr.bufTable turns).pageNo := ⟨goes.1,named,rfl⟩
      cases written : s₁.writeFrame io turns with
      | mk status s₂ =>
        dsimp only
        by_cases failed : status ≠ .ok
        · cases writeFrame_failed written failed
          refine ⟨same,inv',fun i g q below held dirty low => ?_⟩
          rcases eq_or_ne i turns with rfl | other
          · -- A write that works only fails on page 0.
            obtain ⟨rfl,rfl⟩ : file = g ∧ (s.mgr.bufTable i).pageNo = q :=
              ⟨Option.some.inj (named.symm.trans held.2.1),held.2.2⟩
            unfold writeFrame at written
            rw [same,named] at written
            simp only [File.writePage,File.intwrite,works,Bool.false_eq_true,false_or] at written
            rw [if_neg (by omega),if_neg (by omega)] at written
            exact absurd (congrArg Prod.fst written).symm failed
          · exact done i g q (others i below other) held dirty low
        · cases not_not.mp failed
          have inside : turns < s.mgr.numBufs := few
          rw [← same] at inv' few
          obtain ⟨kept,inv₂,there,elsewhere⟩ := writeFrame_ok inv' few (by rw [same]; exact holds) written
          rw [same] at inv₂
          refine ⟨kept.trans same,inv₂,fun i g q below held dirty low => ?_⟩
          rcases eq_or_ne i turns with rfl | other
          · obtain ⟨rfl,rfl⟩ : file = g ∧ (s.mgr.bufTable i).pageNo = q :=
              ⟨Option.some.inj (named.symm.trans held.2.1),held.2.2⟩
            exact there
          · rw [elsewhere g q]
            · exact done i g q (others i below other) held dirty low
            · rintro ⟨rfl,rfl⟩
              exact other (inv.holder_unique (by omega) inside held holds)
    · rw [if_neg goes]
      refine ⟨same,inv',fun i g q below held dirty low => ?_⟩
      rcases eq_or_ne i turns with rfl | other
      · exact absurd ⟨held.1,dirty⟩ goes
      · exact done i g q (others i below other) held dirty low

theorem close_stored {s : Storage} {io : Faults} (inv : Consistent hash s.mgr s.disk last pins)
    (unmodified : ∀ pin ∈ pins, pin.modified = false) (works : ∀ file pageNo, (io file).write pageNo = false)
    (file : FileId) (pageNo : Int) (low : 1 ≤ pageNo) : File.at? ((s.close io).disk file) pageNo =
    last file pageNo := by
  obtain ⟨_,inv',done⟩ := closeFrames_spec inv works s.mgr.numBufs (Nat.le_refl _)
  change File.at? ((closeFrames io s.mgr.numBufs s).disk file) pageNo = _
  cases found : s.mgr.hashTable.find hash file pageNo with
  | none => exact inv'.away file pageNo low found
  | some i =>
    obtain ⟨inside,holds⟩ := inv.found found
    by_cases dirty : (s.mgr.bufTable i).dirty = true
    · exact done i file pageNo inside holds dirty low
    · have clean := (inv'.used inside holds).clean (Bool.eq_false_iff.mpr dirty) fun pin member _ =>
        unmodified pin member
      rw [holds.2.2] at clean
      exact clean.2

end Storage
end Minirel
