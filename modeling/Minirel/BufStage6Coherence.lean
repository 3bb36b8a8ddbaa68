import Minirel.BufStage6
import Minirel.BufFrames

namespace Minirel.Stage6
open BucketTable Consistent

variable {last : Contents} {pins : List Pin}

def release : Release := ⟨hash,readPage,allocPage,unPinPage⟩

-- The frame whose page allocBuf would evict.
def victim (m : BufMgr) : Option Nat :=
  if (sweep (2 * m.numBufs) m).2.2 then some (sweep (2 * m.numBufs) m).1.clockHand else none

def WritesBack (io : Faults) (m : BufMgr) : Prop :=
  ∀ i file, victim m = some i → (m.bufTable i).file = some file → (m.bufTable i).dirty = true →
    1 ≤ (m.bufTable i).pageNo ∧ (io file).write (m.bufTable i).pageNo = false

theorem WritesBack.of_none {io : Faults} {m : BufMgr} (none : victim m = none) : WritesBack io m := by
  intro i file found
  rw [none] at found
  cases found

def Exhausted (m : BufMgr) : Prop :=
  (sweep (2 * m.numBufs) m).2.2 = false ∧ (sweep (2 * m.numBufs) m).2.1 = 0

-- The calls after which nothing stale is left behind: an eviction is followed by all that
-- should come after it, and a page taken from the file is not in the pool already.
def Safe (s : Storage) (io : Faults) : Act → Prop
  | .readPage file pageNo =>
    s.mgr.hashTable.find hash file pageNo = none →
      WritesBack io s.mgr ∧
      ((victim s.mgr).isSome → 1 ≤ pageNo ∧ (io file).read pageNo = false ∧ (File.at? (s.disk file) pageNo).isSome)
  | .allocPage file =>
    match File.allocatePage (io file) (s.disk file) with
    | (.ok pageNo,_) => WritesBack io s.mgr ∧ (s.mgr.hashTable.find hash file pageNo = none ∨ Exhausted s.mgr)
    | (.error _,unixFile) => unixFile = s.disk file
  | _ => True

def SafeRun : System → List (Faults × Act) → Prop
  | _,[] => True
  | s,(io,act)::rest => Safe s.storage io act ∧ SafeRun (s.step release io act) rest

structure Swept (m : BufMgr) (result : BufMgr × Nat × Bool) : Prop where
  ticked : Ticked m result.1
  found : result.2.2 = true →
    (result.1.bufTable result.1.clockHand).valid = true ∧ (result.1.bufTable result.1.clockHand).pinCnt = 0
  stopped : result.2.2 = false → result.2.1 ≠ 0 → (result.1.bufTable result.1.clockHand).valid = false

theorem Swept.earlier {m t : BufMgr} {result : BufMgr × Nat × Bool} (ticked : Ticked m t) (swept : Swept t result) :
    Swept m result := ⟨ticked.trans swept.ticked,swept.found,swept.stopped⟩

theorem cleared {m : BufMgr} {i : Nat} (hand : m.clockHand < m.numBufs) :
    Ticked m (m.countAccess.setDesc i {m.bufTable i with refbit := false}) := by
  refine ⟨rfl,rfl,rfl,hand,fun j => ?_⟩
  rcases eq_or_ne j i with rfl | other
  · exact ⟨false,BufMgr.setDesc_same ..⟩
  · exact ⟨(m.bufTable j).refbit,BufMgr.setDesc_other _ _ other⟩

theorem sweep_spec (turns : Nat) (m : BufMgr) (hand : m.clockHand < m.numBufs) : Swept m (sweep turns m) := by
  induction turns generalizing m with
  | zero => exact ⟨.refl hand,fun none => (by cases none),fun _ none => absurd rfl none⟩
  | succ turns ih =>
    have advanced : Ticked m m.advanceClock :=
      ⟨rfl,rfl,rfl,Nat.mod_lt _ (Nat.lt_of_le_of_lt (Nat.zero_le _) hand),fun i => ⟨(m.bufTable i).refbit,rfl⟩⟩
    have inside := advanced.hand
    unfold sweep
    dsimp only
    by_cases invalid : ¬ (m.advanceClock.bufTable m.advanceClock.clockHand).valid = true
    · rw [if_pos invalid]
      exact ⟨advanced,fun none => (by cases none),fun _ _ => Bool.eq_false_iff.mpr invalid⟩
    · rw [if_neg invalid]
      by_cases unreferenced : ¬ (m.advanceClock.bufTable m.advanceClock.clockHand).refbit = true
      · rw [if_pos unreferenced]
        by_cases unpinned : (m.advanceClock.bufTable m.advanceClock.clockHand).pinCnt = 0
        · rw [if_pos unpinned]
          exact ⟨advanced,fun _ => ⟨not_not.mp invalid,unpinned⟩,fun none => by cases none⟩
        · rw [if_neg unpinned]
          exact (ih _ inside).earlier advanced
      · rw [if_neg unreferenced]
        refine Swept.earlier (advanced.trans (cleared (i:=m.advanceClock.clockHand) inside)) (ih _ ?_)
        exact inside

-- Where the entry has gone from the hash table before the page is written, the write is the same.
theorem writeFrame_congr {m k : BufMgr} {disk : Disk} {io : Faults} {i : Nat} (desc : k.bufTable i = m.bufTable i)
    (pool : k.bufPool i = m.bufPool i) :
    Storage.writeFrame io ⟨k,disk⟩ i =
      ((Storage.writeFrame io ⟨m,disk⟩ i).1,⟨k,(Storage.writeFrame io ⟨m,disk⟩ i).2.disk⟩) := by
  unfold Storage.writeFrame
  dsimp only
  rw [desc,pool]
  cases (m.bufTable i).file with
  | none => rfl
  | some file => rfl

structure AllocBufStage6 (s : Storage) (io : Faults) (last : Contents) (pins : List Pin)
    (result : Except Status Nat × Storage) : Prop where
  freed : ∀ i s', result = (.ok i,s') → Freed hash s s' last pins i
  failed : ∀ status s', result = (.error status,s') → WritesBack io s.mgr → Consistent hash s'.mgr s'.disk last pins
  untouched : victim s.mgr = none → Consistent hash result.2.mgr result.2.disk last pins

theorem ticked_desc {m m' : BufMgr} (ticked : Ticked m m') (i : Nat) :
    (m'.bufTable i).file = (m.bufTable i).file ∧ (m'.bufTable i).pageNo = (m.bufTable i).pageNo ∧
      (m'.bufTable i).dirty = (m.bufTable i).dirty := by
  obtain ⟨b,same⟩ := ticked.descs i
  rw [same]
  exact ⟨rfl,rfl,rfl⟩

-- The victim's entry leaves the hash table before its page is written back.
theorem evict_spec {s : Storage} {m : BufMgr} {file : FileId} (inv : Consistent hash m s.disk last pins)
    (table : m.hashTable = s.mgr.hashTable) (valid : (m.bufTable m.clockHand).valid = true)
    (named : (m.bufTable m.clockHand).file = some file) (unpinned : (m.bufTable m.clockHand).pinCnt = 0)
    {disk : Disk} (inv' : Consistent hash m disk last pins)
    (safe : 1 ≤ (m.bufTable m.clockHand).pageNo →
      File.at? (disk file) (m.bufTable m.clockHand).pageNo = last file (m.bufTable m.clockHand).pageNo)
    (stored : ∀ g q, (File.at? (s.disk g) q).isSome → (File.at? (disk g) q).isSome) :
    Freed hash s ⟨m.dropEntry hash m.clockHand,disk⟩ last pins m.clockHand := by
  have holds : (m.bufTable m.clockHand).Holds file (m.bufTable m.clockHand).pageNo := ⟨valid,named,rfl⟩
  have dropped : m.dropEntry hash m.clockHand =
      m.setTable (m.hashTable.remove hash file (m.bufTable m.clockHand).pageNo).2 := by
    rw [BufMgr.dropEntry,named]
  rw [dropped]
  refine ⟨⟨inv.hand,?_⟩,fun g q missing => ?_,stored⟩
  · exact inv'.vacate inv.hand holds unpinned safe ⟨rfl,rfl,rfl,rfl⟩ (inv.frames _ inv.hand).frameNo
  · refine ((BufHashTbl.remove_spec hash file _ inv.sound).2 g q).trans ?_
    rw [table,missing]
    split <;> rfl

theorem allocBuf_spec (io : Faults) {s : Storage} (inv : Consistent hash s.mgr s.disk last pins) :
    AllocBufStage6 s io last pins (allocBuf io s) := by
  obtain ⟨ticked,found,stopped⟩ := sweep_spec (2 * s.mgr.numBufs) s.mgr inv.hand
  have none_evicted : victim s.mgr = none → (sweep (2 * s.mgr.numBufs) s.mgr).2.2 = false := by
    intro none
    unfold victim at none
    split at none
    · cases none
    · rename_i missing; exact Bool.eq_false_iff.mpr missing
  have evicted : (sweep (2 * s.mgr.numBufs) s.mgr).2.2 = true →
      victim s.mgr = some (sweep (2 * s.mgr.numBufs) s.mgr).1.clockHand := fun yes => if_pos yes
  have descs := ticked_desc ticked
  have inv₁ := inv.tick ticked
  unfold allocBuf
  generalize sweep (2 * s.mgr.numBufs) s.mgr = swept at ticked found stopped none_evicted evicted descs inv₁ ⊢
  obtain ⟨m,left,hit⟩ := swept
  dsimp only at *
  cases hit with
  | false =>
    simp only [Bool.false_eq_true,if_false,not_false_eq_true,true_and]
    by_cases ended : left = 0
    · rw [if_pos ended]
      refine ⟨fun i s' result => (by cases result),fun status s' result _ => ?_,fun _ => inv₁⟩
      cases result
      exact inv₁
    · have invalid := stopped rfl ended
      have clean := ((inv₁.frames _ inv₁.hand).idle invalid).dirty
      rw [if_neg ended,if_neg (by rw [clean]; decide)]
      refine ⟨fun i s' result => ?_,fun status s' result => (by cases result),fun _ => inv₁⟩
      cases result
      refine ⟨inv₁.vacant_invalid inv₁.hand invalid,fun g q missing => ?_,fun _ _ => id⟩
      rw [ticked.hashTable]
      exact missing
  | true =>
    obtain ⟨valid,unpinned⟩ := found rfl
    obtain ⟨file,named,use⟩ := (inv₁.frames _ inv₁.hand).used valid
    have holds : (m.bufTable m.clockHand).Holds file (m.bufTable m.clockHand).pageNo := ⟨valid,named,rfl⟩
    have hand : (m.dropEntry hash m.clockHand).clockHand = m.clockHand := by unfold BufMgr.dropEntry; split <;> rfl
    have kept : (m.dropEntry hash m.clockHand).bufTable = m.bufTable := by unfold BufMgr.dropEntry; split <;> rfl
    have pool : (m.dropEntry hash m.clockHand).bufPool = m.bufPool := by unfold BufMgr.dropEntry; split <;> rfl
    have some_victim : victim s.mgr ≠ none := by rw [evicted rfl]; exact Option.some_ne_none _
    simp only [if_true,not_true_eq_false,false_and,if_false]
    rw [hand,kept]
    by_cases dirty : (m.bufTable m.clockHand).dirty = true
    · rw [if_pos dirty,writeFrame_congr (m:=m) (k:=(m.dropEntry hash m.clockHand).countWrite) (congrFun kept _)
        (congrFun pool _)]
      cases written : Storage.writeFrame io ⟨m,s.disk⟩ m.clockHand with
      | mk status s₂ =>
        dsimp only
        by_cases failed : status ≠ .ok
        · rw [if_pos failed]
          refine ⟨fun i s' result => (by cases result),fun _ _ _ works => ?_,fun none => absurd none some_victim⟩
          -- The write cannot have failed: the victim is what WritesBack speaks of.
          obtain ⟨sameFile,samePage,sameDirty⟩ := descs m.clockHand
          obtain ⟨low,goes⟩ := works m.clockHand file (evicted rfl) (sameFile.symm.trans named)
            (sameDirty.symm.trans dirty)
          rw [← samePage] at low goes
          have done := Storage.writeFrame_works (s:=⟨m,s.disk⟩) named low goes
          rw [written] at done
          exact absurd done failed
        · rw [if_neg failed]
          cases not_not.mp failed
          obtain ⟨same,inv₂,there,_⟩ := Storage.writeFrame_ok (s:=⟨m,s.disk⟩) inv₁ inv₁.hand holds written
          have stored := written_stored (s:=⟨m,s.disk⟩) inv₁ inv₁.hand holds written
          refine ⟨fun i s' result => ?_,fun _ _ result => (by cases result),fun none => absurd none some_victim⟩
          cases result
          exact (evict_spec inv₁ ticked.hashTable valid named unpinned inv₂ (fun _ => there) stored).countWrite
    · rw [if_neg dirty]
      refine ⟨fun i s' result => ?_,fun _ _ result => (by cases result),fun none => absurd none some_victim⟩
      cases result
      refine evict_spec inv₁ ticked.hashTable valid named unpinned inv₁ (fun _ => ?_) fun _ _ => id
      refine (use.clean (Bool.eq_false_iff.mpr dirty) fun pin member on => ?_).2
      exact absurd on (inv₁.pins_zero inv₁.hand holds unpinned pin member)

theorem allocBuf_header (io : Faults) (s : Storage) (file : FileId) :
    File.header ((allocBuf io s).2.disk file) = File.header (s.disk file) := by
  unfold allocBuf
  generalize sweep (2 * s.mgr.numBufs) s.mgr = swept
  obtain ⟨m,left,hit⟩ := swept
  dsimp only
  generalize (if hit = true then m.dropEntry hash m.clockHand else m) = k
  split
  · rfl
  · split
    · have kept := Storage.writeFrame_header io ⟨k.countWrite,s.disk⟩ k.clockHand file
      cases written : Storage.writeFrame io ⟨k.countWrite,s.disk⟩ k.clockHand with
      | mk status t =>
        rw [written] at kept
        dsimp only
        split
        · exact kept
        · exact kept
    · rfl

theorem readPage_spec (io : Faults) {s : Storage} (inv : Consistent hash s.mgr s.disk last pins) (file : FileId)
    (pageNo : Int) :
    (∀ frame s', readPage io s file pageNo = (.ok frame,s') →
      ReadPage hash last pins file pageNo (readPage io s file pageNo)) ∧
    ((s.mgr.hashTable.find hash file pageNo = none → WritesBack io s.mgr ∧
        ((victim s.mgr).isSome → 1 ≤ pageNo ∧ (io file).read pageNo = false ∧ (File.at? (s.disk file) pageNo).isSome)) →
      ReadPage hash last pins file pageNo (readPage io s file pageNo)) := by
  unfold readPage
  cases present : s.mgr.hashTable.find hash file pageNo with
  | some frame =>
    obtain ⟨inside,holds⟩ := inv.found present
    have contents := (inv.used inside holds).contents
    rw [holds.2.2] at contents
    rw [BufHashTbl.lookup_ok present]
    have spec : ReadPage hash last pins file pageNo (.ok frame,⟨s.mgr.setDesc frame
        {s.mgr.bufTable frame with refbit := true, pinCnt := (s.mgr.bufTable frame).pinCnt + 1},s.disk⟩) :=
      ⟨inv.pin_hit present,contents⟩
    exact ⟨fun _ _ _ => spec,fun _ => spec⟩
  | none =>
    rw [BufHashTbl.lookup_error present]
    dsimp only
    obtain ⟨freed,failed,untouched⟩ := allocBuf_spec io inv
    cases result : allocBuf io s with
    | mk outcome s' =>
      cases outcome with
      | error status =>
        refine ⟨fun _ _ none => (by cases none),fun safe => ?_⟩
        exact failed status s' result (safe rfl).1
      | ok frame =>
        have free := freed frame s' result
        dsimp only
        cases read : File.readPage (io file) (s'.disk file) pageNo with
        | error status =>
          refine ⟨fun _ _ none => (by cases none),fun safe => ?_⟩
          cases evicts : victim s.mgr with
          | none =>
            have after := untouched evicts
            rw [result] at after
            exact after.countRead
          | some i =>
            obtain ⟨low,goes,there⟩ := (safe rfl).2 (by rw [evicts]; rfl)
            obtain ⟨page,found⟩ := Option.isSome_iff_exists.mp (free.stored _ _ there)
            rw [File.readPage,if_neg (by omega),File.intread,goes,if_neg (by decide),found] at read
            cases read
        | ok page =>
          obtain ⟨table,inserted,inv',known⟩ := free.fetch present read
          have entered : ((s'.mgr.countRead.setPage frame page).setDesc frame
              (((s'.mgr.countRead.setPage frame page).bufTable frame).set file pageNo)).hashTable.insert hash
              file pageNo frame =
                (.ok,table) := inserted
          dsimp only
          rw [entered,if_neg (not_not.mpr rfl)]
          have spec : ReadPage hash last pins file pageNo
            (.ok frame,⟨((s'.mgr.countRead.setPage frame page).setDesc frame
              ((s'.mgr.bufTable frame).set file pageNo)).setTable table,s'.disk⟩) :=
            ⟨inv',by rw [known]; exact congrArg some (BufMgr.setPage_same ..).symm⟩
          exact ⟨fun _ _ _ => spec,fun _ => spec⟩

theorem allocBuf_exhausted {io : Faults} {s s' : Storage} {i : Nat} (exhausted : Exhausted s.mgr) :
    allocBuf io s ≠ (.ok i,s') := by
  obtain ⟨missed,ended⟩ := exhausted
  unfold allocBuf
  generalize sweep (2 * s.mgr.numBufs) s.mgr = swept at missed ended ⊢
  obtain ⟨m,left,hit⟩ := swept
  cases missed
  cases ended
  intro none
  cases none

-- A page of the file that is in no frame goes into the frame that allocBuf has found.
theorem allocPage_handed {io : Faults} {s s' : Storage} (inv : Consistent hash s.mgr s.disk last pins)
    {file : FileId} {pageNo : Int}
    {unixFile : UnixFile} {frame : Nat} (allocated : File.allocatePage (io file) (s.disk file) = (.ok pageNo,unixFile))
    (missing : s.mgr.hashTable.find hash file pageNo = none)
    (given : allocBuf io ⟨s.mgr,Function.update s.disk file unixFile⟩ = (.ok frame,s')) :
    ∃ table, (s'.mgr.setDesc frame ((s'.mgr.bufTable frame).set file pageNo)).hashTable.insert hash file pageNo frame =
      (.ok,table) ∧
      Consistent hash ((s'.mgr.setDesc frame ((s'.mgr.bufTable frame).set file pageNo)).setTable table) s'.disk
        (System.update (System.appear last file unixFile) file pageNo (s'.mgr.bufPool frame))
        (⟨file,pageNo,frame,true⟩::pins) := by
  have made := File.allocatePage_spec (inv.counted file) (File.allocatePage_ok allocated)
  rw [allocated] at made
  have inv₁ := inv.grow made
  have present : (File.at? (Function.update s.disk file unixFile file) pageNo).isSome := by
    rw [Function.update_self]; exact made.handed pageNo rfl
  have freed := (allocBuf_spec io (s:=⟨s.mgr,Function.update s.disk file unixFile⟩) inv₁).freed frame s' given
  exact freed.hand_out missing present

theorem allocPage_spec (io : Faults) {s : Storage} (inv : Consistent hash s.mgr s.disk last pins) (file : FileId)
    (safe : Safe s io (.allocPage file)) :
    AllocPage hash (System.appear last file (File.allocatePage (io file) (s.disk file)).2) pins file
      (allocPage io s file) := by
  unfold allocPage
  unfold Safe at safe
  dsimp only at safe
  cases allocated : File.allocatePage (io file) (s.disk file) with
  | mk number unixFile =>
    rw [allocated] at safe
    dsimp only at safe ⊢
    cases number with
    | error status =>
      dsimp only at safe ⊢
      subst safe
      exact inv.grow (File.Allocated.failed status (inv.counted file))
    | ok pageNo =>
      obtain ⟨writes,outside⟩ := safe
      have made := File.allocatePage_spec (inv.counted file) (File.allocatePage_ok allocated)
      rw [allocated] at made
      cases result : allocBuf io ⟨s.mgr,Function.update s.disk file unixFile⟩ with
      | mk outcome s' =>
        cases outcome with
        | error status =>
          exact (allocBuf_spec io (s:=⟨s.mgr,Function.update s.disk file unixFile⟩) (inv.grow made)).failed
            status s' result writes
        | ok frame =>
          dsimp only
          have missing := outside.resolve_right fun exhausted =>
            allocBuf_exhausted (s:=⟨s.mgr,Function.update s.disk file unixFile⟩) exhausted result
          obtain ⟨table,inserted,inv'⟩ := allocPage_handed inv allocated missing result
          rw [inserted,if_neg (not_not.mpr rfl)]
          exact inv'

theorem unPinPage_ok {s : Storage} (inv : Consistent hash s.mgr s.disk last pins) {pin : Pin} (member : pin ∈ pins)
    (dirty : Bool) : unPinPage s pin.file pin.pageNo dirty =
      (.ok,{s with mgr := s.mgr.setDesc pin.frame {s.mgr.bufTable pin.frame with
        pinCnt := (s.mgr.bufTable pin.frame).pinCnt - 1, dirty := dirty || (s.mgr.bufTable pin.frame).dirty}}) := by
  have busy : (s.mgr.bufTable pin.frame).pinCnt ≠ 0 := by
    have := inv.held_pinned member
    omega
  unfold unPinPage
  rw [BufHashTbl.lookup_ok (inv.held pin member)]
  dsimp only
  cases dirty with
  | true => exact if_neg busy
  | false => exact if_neg busy

-- A page nobody has pinned can be marked dirty, which costs a write but loses nothing.
theorem unPinPage_other {s : Storage} (inv : Consistent hash s.mgr s.disk last pins) {file : FileId} {pageNo : Int}
    (free : ∀ pin ∈ pins, ¬ pin.on file pageNo = true) (dirty : Bool) :
    Consistent hash (unPinPage s file pageNo dirty).2.mgr (unPinPage s file pageNo dirty).2.disk last pins := by
  unfold unPinPage
  cases present : s.mgr.hashTable.find hash file pageNo with
  | none => rw [BufHashTbl.lookup_error present]; exact inv
  | some frame =>
    obtain ⟨inside,holds⟩ := inv.found present
    have count := (inv.used inside holds).pinned
    have none : pinsOn pins file pageNo = 0 := List.countP_eq_zero.mpr free
    rw [holds.2.2,none,Nat.cast_zero] at count
    have marked := inv.mark present (dirty || (s.mgr.bufTable frame).dirty) fun was => by rw [was,Bool.or_true]
    rw [BufHashTbl.lookup_ok present]
    dsimp only
    cases dirty with
    | true =>
      rw [if_pos rfl,if_pos count]
      exact marked
    | false =>
      rw [if_neg Bool.false_ne_true,if_pos count]
      exact marked

theorem step_consistent {s : System} (inv : Consistent hash s.mgr s.disk s.last s.pins) (io : Faults) (act : Act)
    (safe : Safe s.storage io act) :
    Consistent hash (s.step release io act).mgr (s.step release io act).disk (s.step release io act).last
      (s.step release io act).pins := by
  cases act with
  | readPage file pageNo =>
    have spec := (readPage_spec io (s:=s.storage) inv file pageNo).2 safe
    change let t := s.afterRead file pageNo (readPage io s.storage file pageNo); Consistent hash t.mgr t.disk
      t.last t.pins
    cases result : readPage io s.storage file pageNo with
    | mk outcome storage =>
      rw [result] at spec
      cases outcome with
      | ok frame => exact spec.1
      | error status => exact spec
  | allocPage file =>
    have spec := allocPage_spec io (s:=s.storage) inv file safe
    change let t := s.afterAlloc file (File.allocatePage (io file) (s.disk file)).2 (allocPage io s.storage file)
      Consistent hash t.mgr t.disk t.last t.pins
    cases result : allocPage io s.storage file with
    | mk outcome storage =>
      rw [result] at spec
      cases outcome with
      | ok made => exact spec
      | error status => exact spec
  | modify n page =>
    cases chosen : s.pins[n]? with
    | none => rw [(System.step_no_pin release io page false chosen).1]; exact inv
    | some pin => rw [System.step_modify release io page chosen]; exact inv.modify chosen page
  | unPinPage n dirty =>
    cases chosen : s.pins[n]? with
    | none => rw [(System.step_no_pin release io (ByteMemory.zero 1024) dirty chosen).2]; exact inv
    | some pin =>
      have given := unPinPage_ok (s:=s.storage) inv (pin_member chosen) (dirty || pin.modified)
      rw [System.step_unPinPage release io dirty chosen]
      change let t := s.afterUnPin n (unPinPage s.storage pin.file pin.pageNo (dirty || pin.modified))
        Consistent hash t.mgr t.disk t.last t.pins
      rw [given]
      exact inv.unpin chosen (fun was => Bool.or_eq_true_iff.mpr (.inr was)) fun changed => by
        rw [changed,Bool.or_true,Bool.true_or]
  | unPinOther file pageNo dirty =>
    change let t := (if s.pins.any (·.on file pageNo) then s
        else {s with storage := (unPinPage s.storage file pageNo dirty).2}); Consistent hash t.mgr t.disk t.last t.pins
    by_cases others : s.pins.any (·.on file pageNo) = true
    · rw [if_pos others]; exact inv
    · rw [if_neg others]
      exact unPinPage_other (s:=s.storage) inv (fun pin member on => others (List.any_eq_true.mpr ⟨pin,member,on⟩))
        dirty
  | flushFile file => exact Storage.flushFile_consistent inv

theorem run_consistent {s : System} (inv : Consistent hash s.mgr s.disk s.last s.pins) (acts : List (Faults × Act))
    (safe : SafeRun s acts) :
    Consistent hash (s.run release acts).mgr (s.run release acts).disk (s.run release acts).last
      (s.run release acts).pins := by
  induction acts generalizing s with
  | nil => exact inv
  | cons call rest ih => exact ih (step_consistent inv call.1 call.2 safe.1) safe.2

theorem coherent_of_consistent {s : System} (inv : Consistent hash s.mgr s.disk s.last s.pins) :
    s.Coherent release := by
  constructor
  case reads =>
    intro io file pageNo frame storage result
    have spec := (readPage_spec io (s:=s.storage) inv file pageNo).1 frame storage result
    change readPage io s.storage file pageNo = _ at result
    rw [result] at spec
    exact spec.2
  case held => exact fun pin member => inv.held_contents member
  case unpins =>
    intro pin member dirty
    exact congrArg Prod.fst (unPinPage_ok (s:=s.storage) inv member dirty)
  case flushes =>
    intro io file storage flushed pageNo low
    exact Storage.flushFile_stored inv flushed pageNo low
  case closes =>
    intro unmodified io works file pageNo low
    exact Storage.close_stored inv unmodified works file pageNo low

theorem buffer_manager_coherent_when_safe (bufs : Nat) (disk : Disk) (acts : List (Faults × Act))
    (some_frame : 1 ≤ bufs)
    (counted : ∀ file, File.Counted (disk file)) (safe : SafeRun (.start bufs disk) acts) :
    ((System.start bufs disk).run release acts).Coherent release :=
  coherent_of_consistent (run_consistent (.init some_frame counted) acts safe)

-- A file of two data pages.
def twoPages : UnixFile := [DBPage.setNumPages (ByteMemory.zero 1024) 3,ByteMemory.zero 1024,ByteMemory.zero 1024]

theorem twoPages_counted : File.Counted twoPages := by
  refine ⟨by decide,?_,by decide⟩
  exact ByteMemory.word_setWord (by decide) (by decide)

theorem buffer_manager_coherent_when_safe_two_frames :
    let works : Faults := fun _ => .working
    let acts := [(works,Act.readPage 0 1),(works,.readPage 0 99),(works,.modify 0 (ByteMemory.zero 1024)),
      (works,.unPinPage 0 false),(works,.readPage 0 2)]
    ((System.start 2 fun _ => twoPages).run release acts).Coherent release := by
  intro works acts
  refine buffer_manager_coherent_when_safe 2 (fun _ => twoPages) acts (by decide) (fun _ => twoPages_counted) ?_
  exact ⟨fun _ => ⟨.of_none (by decide),fun some_victim => absurd some_victim (by decide)⟩,
    fun _ => ⟨.of_none (by decide),fun some_victim => absurd some_victim (by decide)⟩,trivial,trivial,
    fun _ => ⟨.of_none (by decide),fun some_victim => absurd some_victim (by decide)⟩,trivial⟩

-- Reading a page past the end evicts page 1 and leaves its frame valid. When page 1 is
-- back in another frame, evicting the stale one takes its entry out of the hash table.
theorem stale_frame_incoherent : ¬ ∀ (bufs : Nat) (disk : Disk) (acts : List (Faults × Act)), 1 ≤ bufs →
    (∀ file, File.Counted (disk file)) → ((System.start bufs disk).run release acts).Coherent release := by
  intro coherent
  let works : Faults := fun _ => .working
  let acts := [(works,Act.readPage 0 1),(works,.unPinPage 0 false),(works,.readPage 0 2),(works,.unPinPage 0 false),
    (works,.readPage 0 99),(works,.readPage 0 1),(works,.readPage 0 2)]
  have unpins := (coherent 2 (fun _ => twoPages) acts (by decide) fun _ => twoPages_counted).unpins
  have member : (⟨0,1,1,false⟩ : Pin) ∈ ((System.start 2 fun _ => twoPages).run release acts).pins := by decide
  have given := unpins _ member false
  revert given
  decide

end Minirel.Stage6
