import Minirel.BufPart3
import Minirel.BufFrames

namespace Minirel.Part3
open BucketTable Consistent

variable {last : Contents} {pins : List Pin}

def release : Release := ⟨hash,readPage,allocPage,unPinPage⟩

theorem passed_over {m : BufMgr} (hand : m.clockHand < m.numBufs) : Ticked m m.advanceClock :=
  ⟨rfl,rfl,rfl,Nat.mod_lt _ (Nat.lt_of_le_of_lt (Nat.zero_le _) hand),fun i => ⟨(m.bufTable i).refbit,rfl⟩⟩

theorem unreferenced {m : BufMgr} (hand : m.clockHand < m.numBufs) (i : Nat) :
    Ticked m ((m.setDesc i {m.bufTable i with refbit := false}).countAccess.advanceClock) := by
  refine ⟨rfl,rfl,rfl,Nat.mod_lt _ (Nat.lt_of_le_of_lt (Nat.zero_le _) hand),fun j => ?_⟩
  rcases eq_or_ne j i with rfl | other
  · exact ⟨false,BufMgr.setDesc_same ..⟩
  · exact ⟨(m.bufTable j).refbit,BufMgr.setDesc_other _ _ other⟩

-- Giving up a frame whose page is on the disk.
theorem given_up {s t : Storage} {i : Nat} {file : FileId} {pageNo : Int} (inv : Consistent hash t.mgr t.disk last pins)
    (inside : i < t.mgr.numBufs) (holds : (t.mgr.bufTable i).Holds file pageNo)
    (unpinned : (t.mgr.bufTable i).pinCnt = 0)
    (safe : 1 ≤ pageNo → File.at? (t.disk file) pageNo = last file pageNo)
    (table : t.mgr.hashTable = s.mgr.hashTable)
    (stored : ∀ g q, (File.at? (s.disk g) q).isSome → (File.at? (t.disk g) q).isSome) :
    Freed hash s ⟨(t.mgr.dropEntry hash i).setDesc i (t.mgr.bufTable i).clear,t.disk⟩ last pins i ∧
      Consistent hash ((t.mgr.dropEntry hash i).setDesc i (t.mgr.bufTable i).clear) t.disk last pins := by
  have dropped : t.mgr.dropEntry hash i = t.mgr.setTable (t.mgr.hashTable.remove hash file pageNo).2 := by
    rw [BufMgr.dropEntry,holds.2.1,holds.2.2]
  have inv' := inv.vacate inside holds unpinned safe (d:=(t.mgr.bufTable i).clear) ⟨rfl,rfl,rfl,rfl⟩
    (inv.frames i inside).frameNo
  rw [dropped]
  refine ⟨⟨vacant_invalid inv' inside ?_,fun g q missing => ?_,stored⟩,inv'⟩
  · rw [BufMgr.setDesc_same]; rfl
  · refine ((BufHashTbl.remove_spec hash file pageNo inv.sound).2 g q).trans ?_
    rw [table,missing]
    split <;> rfl

theorem allocTurns_spec (io : Faults) (turns : Nat) (s : Storage) (inv : Consistent hash s.mgr s.disk last pins) :
    AllocBuf hash last pins s (allocTurns io turns s) ∧
      Consistent hash (allocTurns io turns s).2.mgr (allocTurns io turns s).2.disk last pins := by
  induction turns generalizing s with
  | zero => exact ⟨inv,inv⟩
  | succ turns ih =>
    have inside := inv.hand
    unfold allocTurns
    dsimp only
    by_cases invalid : ¬ (s.mgr.bufTable s.mgr.clockHand).valid = true
    · rw [if_pos invalid]
      exact ⟨⟨inv.vacant_invalid inside (Bool.eq_false_iff.mpr invalid),fun _ _ => id,fun _ _ => id⟩,inv⟩
    · rw [if_neg invalid]
      have valid := not_not.mp invalid
      by_cases referenced : (s.mgr.bufTable s.mgr.clockHand).refbit = true
      · rw [if_pos referenced]
        refine (ih _ ?_).imp_left fun later => later.earlier rfl rfl
        exact inv.tick (unreferenced inside s.mgr.clockHand)
      · rw [if_neg referenced]
        obtain ⟨file,named,use⟩ := (inv.frames _ inside).used valid
        have holds : (s.mgr.bufTable s.mgr.clockHand).Holds file (s.mgr.bufTable s.mgr.clockHand).pageNo :=
          ⟨valid,named,rfl⟩
        by_cases pinned : (s.mgr.bufTable s.mgr.clockHand).pinCnt > 0
        · rw [if_pos pinned]
          refine (ih _ ?_).imp_left fun later => later.earlier rfl rfl
          exact inv.tick (passed_over inside)
        · rw [if_neg pinned]
          have unpinned : (s.mgr.bufTable s.mgr.clockHand).pinCnt = 0 := by
            have := use.pinned
            omega
          by_cases dirty : (s.mgr.bufTable s.mgr.clockHand).dirty = true
          · rw [if_pos dirty]
            cases written : s.writeFrame io s.mgr.clockHand with
            | mk status s' =>
              dsimp only
              by_cases failed : status ≠ .ok
              · rw [if_pos failed]
                cases Storage.writeFrame_failed written failed
                exact ⟨inv.countWrite,inv.countWrite⟩
              · rw [if_neg failed]
                cases not_not.mp failed
                obtain ⟨same,inv',there,_⟩ := Storage.writeFrame_ok inv inside holds written
                have kept := written_stored inv inside holds written
                rw [same]
                exact given_up (t:=⟨s.mgr.countWrite,s'.disk⟩) inv'.countWrite inside holds unpinned
                  (fun _ => there) rfl kept
          · rw [if_neg dirty]
            refine given_up inv inside holds unpinned (fun _ => ?_) rfl fun _ _ => id
            refine (use.clean (Bool.eq_false_iff.mpr dirty) fun pin member on => ?_).2
            exact absurd on (inv.pins_zero inside holds unpinned pin member)

theorem allocBuf_spec (io : Faults) {s : Storage} (inv : Consistent hash s.mgr s.disk last pins) :
    AllocBuf hash last pins s (allocBuf io s) ∧
      Consistent hash (allocBuf io s).2.mgr (allocBuf io s).2.disk last pins := allocTurns_spec io _ s inv

-- Every descriptor carries its own frame number, so the search ends at the frame asked for.
theorem findDesc_spec {m : BufMgr} {i : Nat} (numbered : ∀ j, j < m.numBufs → (m.bufTable j).frameNo = j)
    (inside : i < m.numBufs) : findDesc m i = some i := by
  unfold findDesc
  rw [List.find?_range_eq_some]
  refine ⟨decide_eq_true (numbered i inside),List.mem_range.mpr inside,fun j below => ?_⟩
  rw [numbered j (by omega)]
  exact Bool.not_eq_true' _ |>.mpr (decide_eq_false (by omega))

theorem readPage_spec (io : Faults) {s : Storage} (inv : Consistent hash s.mgr s.disk last pins) (file : FileId)
    (pageNo : Int) :
    ReadPage hash last pins file pageNo (readPage io s file pageNo) := by
  unfold readPage
  cases present : s.mgr.hashTable.find hash file pageNo with
  | some frame =>
    obtain ⟨inside,holds⟩ := inv.found present
    have contents := (inv.used inside holds).contents
    rw [holds.2.2] at contents
    rw [BufHashTbl.lookup_ok present]
    dsimp only
    rw [findDesc_spec (fun j below => (inv.frames j below).frameNo) inside]
    exact ⟨inv.pin_hit present,contents⟩
  | none =>
    rw [BufHashTbl.lookup_error present]
    dsimp only
    obtain ⟨spec,after⟩ := allocBuf_spec io inv
    cases result : allocBuf io s with
    | mk outcome s' =>
      rw [result] at spec after
      cases outcome with
      | error status => exact after
      | ok frame =>
        dsimp only
        cases read : File.readPage (io file) (s'.disk file) pageNo with
        | error status => exact after.countRead
        | ok page =>
          dsimp only
          obtain ⟨table,inserted,inv',known⟩ := Freed.fetch spec present read
          have target : findDesc (s'.mgr.countRead.setPage frame page) frame = some frame :=
            findDesc_spec (fun j below => (after.frames j below).frameNo) spec.vacant.inside
          have entered : ((s'.mgr.countRead.setPage frame page).setDesc frame
              (((s'.mgr.countRead.setPage frame page).bufTable frame).set file pageNo)).hashTable.insert hash
              file pageNo frame =
                (.ok,table) := inserted
          rw [target]
          dsimp only
          rw [entered,if_neg (not_not.mpr rfl)]
          exact ⟨inv',by rw [known]; exact congrArg some (BufMgr.setPage_same ..).symm⟩

theorem allocPage_spec (io : Faults) {s : Storage} (inv : Consistent hash s.mgr s.disk last pins) (file : FileId)
    (works : (io file).write 0 = false) (noFree : File.NoFreePages (s.disk file)) :
    AllocPage hash (System.appear last file (File.allocatePage (io file) (s.disk file)).2) pins file
      (allocPage io s file) := by
  have made := File.allocatePage_spec (inv.counted file) works
  unfold allocPage
  cases allocated : File.allocatePage (io file) (s.disk file) with
  | mk number unixFile =>
    rw [allocated] at made
    have inv₁ := inv.grow made
    dsimp only at inv₁ ⊢
    cases number with
    | error status => exact inv₁
    | ok pageNo =>
      dsimp only
      have fresh := made.fresh pageNo rfl noFree
      have missing : s.mgr.hashTable.find hash file pageNo = none := inv.unknown fresh
      have present : (File.at? (Function.update s.disk file unixFile file) pageNo).isSome := by
        rw [Function.update_self]; exact made.handed pageNo rfl
      obtain ⟨spec,after⟩ := allocBuf_spec io (s:=⟨s.mgr,Function.update s.disk file unixFile⟩) inv₁
      cases result : allocBuf io ⟨s.mgr,Function.update s.disk file unixFile⟩ with
      | mk outcome s' =>
        rw [result] at spec after
        cases outcome with
        | error status => exact after
        | ok frame =>
          dsimp only
          obtain ⟨table,inserted,inv'⟩ := Freed.hand_out spec missing present
          rw [inserted,if_neg (not_not.mpr rfl)]
          exact inv'

theorem unPinPage_ok {s : Storage} (inv : Consistent hash s.mgr s.disk last pins) {pin : Pin} (member : pin ∈ pins)
    (dirty : Bool) : unPinPage s pin.file pin.pageNo dirty =
      (.ok,{s with mgr := s.mgr.setDesc pin.frame {s.mgr.bufTable pin.frame with
        pinCnt := (s.mgr.bufTable pin.frame).pinCnt - 1, dirty := dirty || (s.mgr.bufTable pin.frame).dirty}}) := by
  have count := inv.held_pinned member
  unfold unPinPage
  rw [BufHashTbl.lookup_ok (inv.held pin member)]
  dsimp only
  rw [if_neg (by omega)]
  cases dirty <;> rfl

theorem unPinPage_held {s : Storage} (inv : Consistent hash s.mgr s.disk last pins) {n : Nat} {pin : Pin}
    (chosen : pins[n]? = some pin) (dirty : Bool) (told : pin.modified = true → dirty = true) :
    ∃ s', unPinPage s pin.file pin.pageNo dirty = (.ok,s') ∧ s'.disk = s.disk ∧
      Consistent hash s'.mgr s'.disk last (pins.eraseIdx n) :=
  ⟨_,unPinPage_ok inv (pin_member chosen) dirty,rfl,
    inv.unpin chosen (fun was => by rw [was,Bool.or_true]) (fun changed => by rw [told changed,Bool.true_or])⟩

-- Without a pin the call is refused and nothing changes.
theorem unPinPage_other {s : Storage} (inv : Consistent hash s.mgr s.disk last pins) {file : FileId} {pageNo : Int}
    (free : ∀ pin ∈ pins, ¬ pin.on file pageNo = true) (dirty : Bool) : (unPinPage s file pageNo dirty).2 = s := by
  unfold unPinPage
  cases present : s.mgr.hashTable.find hash file pageNo with
  | none => rw [BufHashTbl.lookup_error present]
  | some frame =>
    obtain ⟨inside,holds⟩ := inv.found present
    have count := (inv.used inside holds).pinned
    have none : pinsOn pins file pageNo = 0 := List.countP_eq_zero.mpr free
    rw [holds.2.2,none,Nat.cast_zero] at count
    rw [BufHashTbl.lookup_ok present]
    dsimp only
    rw [if_pos count]

theorem allocTurns_header (io : Faults) (turns : Nat) (s : Storage) (file : FileId) :
    File.header ((allocTurns io turns s).2.disk file) = File.header (s.disk file) := by
  induction turns generalizing s with
  | zero => rfl
  | succ turns ih =>
    unfold allocTurns
    dsimp only
    split
    · rfl
    · split
      · exact ih _
      · split
        · exact ih _
        · split
          · have kept := Storage.writeFrame_header io s s.mgr.clockHand file
            cases written : s.writeFrame io s.mgr.clockHand with
            | mk status s' =>
              rw [written] at kept
              dsimp only
              split
              · exact kept
              · exact kept
          · rfl

theorem readPage_header (io : Faults) (s : Storage) (file : FileId) (pageNo : Int) (g : FileId) :
    File.header ((readPage io s file pageNo).2.disk g) = File.header (s.disk g) := by
  unfold readPage
  split
  · have kept := allocTurns_header io (2 * s.mgr.numBufs) s g
    split
    · rename_i result; rw [← kept]; exact congrArg (fun r => File.header (r.2.disk g)) result.symm
    · rename_i result
      have kept' := (congrArg (fun r => File.header (r.2.disk g)) result).symm.trans kept
      dsimp only
      split
      · exact kept'
      · split
        · exact kept'
        · split
          · exact kept'
          · exact kept'
  · split
    · rfl
    · rfl

theorem allocPage_header (io : Faults) (s : Storage) (file : FileId) (g : FileId) :
    File.header ((allocPage io s file).2.disk g) =
      File.header (Function.update s.disk file (File.allocatePage (io file) (s.disk file)).2 g) := by
  unfold allocPage
  cases File.allocatePage (io file) (s.disk file) with
  | mk number unixFile =>
    dsimp only
    cases number with
    | error status => rfl
    | ok pageNo =>
      have kept := allocTurns_header io (2 * s.mgr.numBufs) ⟨s.mgr,Function.update s.disk file unixFile⟩ g
      change File.header ((allocBuf io ⟨s.mgr,Function.update s.disk file unixFile⟩).2.disk g) = _ at kept
      dsimp only
      cases result : allocBuf io ⟨s.mgr,Function.update s.disk file unixFile⟩ with
      | mk outcome s' =>
        rw [result] at kept
        cases outcome with
        | error status => exact kept
        | ok frame =>
          dsimp only
          split
          · exact kept
          · exact kept

structure Good (s : System) : Prop where
  consistent : Consistent hash s.mgr s.disk s.last s.pins
  noFree : ∀ file, File.NoFreePages (s.disk file)

theorem start_good {bufs : Nat} {disk : Disk} (some_frame : 1 ≤ bufs) (counted : ∀ file, File.Counted (disk file))
    (no_free : ∀ file, File.NoFreePages (disk file)) : Good (.start bufs disk) :=
  ⟨.init some_frame counted,no_free⟩

theorem step_good {s : System} (good : Good s) (io : Faults) (works : ∀ file, (io file).write 0 = false) (act : Act) :
    Good (s.step release io act) := by
  obtain ⟨inv,noFree⟩ := good
  cases act with
  | readPage file pageNo =>
    have spec := readPage_spec io inv file pageNo
    have noFree' : ∀ g, File.NoFreePages ((readPage io s.storage file pageNo).2.disk g) := fun g => by
      rw [File.NoFreePages,readPage_header]; exact noFree g
    change Good (s.afterRead file pageNo (readPage io s.storage file pageNo))
    change ReadPage hash s.last s.pins file pageNo (readPage io s.storage file pageNo) at spec
    cases result : readPage io s.storage file pageNo with
    | mk outcome storage =>
      rw [result] at spec noFree'
      cases outcome with
      | ok frame => exact ⟨spec.1,noFree'⟩
      | error status => exact ⟨spec,noFree'⟩
  | allocPage file =>
    have spec := allocPage_spec io inv file (works file) (noFree file)
    have noFree' : ∀ g, File.NoFreePages ((allocPage io s.storage file).2.disk g) := fun g => by
      rw [File.NoFreePages,allocPage_header]
      rcases eq_or_ne g file with rfl | other
      · rw [Function.update_self]
        exact (File.allocatePage_spec (inv.counted g) (works g)).noFree (noFree g)
      · rw [Function.update_of_ne other]; exact noFree g
    change Good (s.afterAlloc file (File.allocatePage (io file) (s.disk file)).2 (allocPage io s.storage file))
    change AllocPage hash (System.appear s.last file (File.allocatePage (io file) (s.disk file)).2) s.pins file
      (allocPage io s.storage file) at spec
    cases result : allocPage io s.storage file with
    | mk outcome storage =>
      rw [result] at spec noFree'
      cases outcome with
      | ok made => exact ⟨spec,noFree'⟩
      | error status => exact ⟨spec,noFree'⟩
  | modify n page =>
    cases chosen : s.pins[n]? with
    | none => rw [(System.step_no_pin release io page false chosen).1]; exact ⟨inv,noFree⟩
    | some pin => rw [System.step_modify release io page chosen]; exact ⟨inv.modify chosen page,noFree⟩
  | unPinPage n dirty =>
    cases chosen : s.pins[n]? with
    | none => rw [(System.step_no_pin release io (ByteMemory.zero 1024) dirty chosen).2]; exact ⟨inv,noFree⟩
    | some pin =>
      obtain ⟨s',given,same,inv'⟩ := unPinPage_held inv chosen (dirty || pin.modified) fun changed => by
        rw [changed,Bool.or_true]
      have noFree' : ∀ g, File.NoFreePages (s'.disk g) := by rw [same]; exact noFree
      rw [System.step_unPinPage release io dirty chosen]
      change Good (s.afterUnPin n (unPinPage s.storage pin.file pin.pageNo (dirty || pin.modified)))
      change unPinPage s.storage pin.file pin.pageNo (dirty || pin.modified) = _ at given
      rw [given]
      exact ⟨inv',noFree'⟩
  | unPinOther file pageNo dirty =>
    change Good (if s.pins.any (·.on file pageNo) then
      s else {s with storage := (unPinPage s.storage file pageNo dirty).2})
    by_cases others : s.pins.any (·.on file pageNo) = true
    · rw [if_pos others]; exact ⟨inv,noFree⟩
    · rw [if_neg others,unPinPage_other inv (fun pin member on => others (List.any_eq_true.mpr ⟨pin,member,on⟩)) dirty]
      exact ⟨inv,noFree⟩
  | flushFile file =>
    refine ⟨Storage.flushFile_consistent inv,fun g => ?_⟩
    change File.NoFreePages ((s.storage.flushFile hash io file).2.disk g)
    rw [File.NoFreePages,Storage.flushFile_header]
    exact noFree g

theorem run_good {s : System} (good : Good s) (acts : List (Faults × Act))
    (works : ∀ call ∈ acts, ∀ file, (call.1 file).write 0 = false) : Good (s.run release acts) := by
  induction acts generalizing s with
  | nil => exact good
  | cons call rest ih =>
    exact ih (step_good good call.1 (works call (List.mem_cons_self ..)) call.2)
      fun later member => works later (List.mem_cons_of_mem _ member)

theorem Good.coherent {s : System} (good : Good s) : s.Coherent release := by
  have inv := good.consistent
  constructor
  case reads =>
    intro io file pageNo frame storage result
    have spec := readPage_spec io inv file pageNo
    change ReadPage hash s.last s.pins file pageNo (readPage io s.storage file pageNo) at spec
    change readPage io s.storage file pageNo = _ at result
    rw [result] at spec
    exact spec.2
  case held => exact fun pin member => inv.held_contents member
  case unpins =>
    intro pin member dirty
    exact congrArg Prod.fst (unPinPage_ok inv member dirty)
  case flushes =>
    intro io file storage flushed pageNo low
    exact Storage.flushFile_stored inv flushed pageNo low
  case closes =>
    intro unmodified io works file pageNo low
    exact Storage.close_stored inv unmodified works file pageNo low

theorem buffer_manager_coherent (bufs : Nat) (disk : Disk) (acts : List (Faults × Act)) (some_frame : 1 ≤ bufs)
    (counted : ∀ file, File.Counted (disk file)) (no_free : ∀ file, File.NoFreePages (disk file))
    (headers : ∀ call ∈ acts, ∀ file, (call.1 file).write 0 = false) :
    ((System.start bufs disk).run release acts).Coherent release :=
  (run_good (start_good some_frame counted no_free) acts headers).coherent

-- One frame: a read past the end, two pages changed in turn, a victim that cannot be written.
theorem buffer_manager_coherent_one_frame :
    let works : Faults := fun _ => .working
    let fails : Faults := fun _ => ⟨fun _ => false,fun pageNo => pageNo = 1⟩
    let acts := [(works,.readPage 0 9),(works,.allocPage 0),(works,.modify 0 (ByteMemory.zero 1024)),
      (works,.unPinPage 0 true),
      (fails,.allocPage 0),(works,.readPage 0 1),(works,.flushFile 0)]
    ((System.start 1 fun _ => File.create).run release acts).Coherent release := by
  intro works fails acts
  refine buffer_manager_coherent 1 _ acts (by decide) (fun _ => File.create_counted.1)
    (fun _ => File.create_counted.2) ?_
  intro call member file
  simp only [acts,List.mem_cons,List.not_mem_nil,or_false] at member
  rcases member with rfl | rfl | rfl | rfl | rfl | rfl | rfl <;> rfl

end Minirel.Part3
