import Minirel.BufPart3Coherence
import Minirel.BufStage6Coherence

namespace Minirel
open BucketTable Consistent

-- The calls on a buffer manager, whoever makes them and whatever they are worth. Between the calls
-- whoever was handed a frame may write in it.
inductive Call where
  | readPage (file : FileId) (pageNo : Int)
  | allocPage (file : FileId)
  | unPinPage (file : FileId) (pageNo : Int) (dirty : Bool)
  | flushFile (file : FileId)
  | modify (frame : Nat) (page : Page)

def resultStatus {α : Type} : Except Status α → Status
  | .ok _ => .ok
  | .error status => status

namespace Storage

def call (release : Release) (io : Faults) (s : Storage) : Call → Status × Storage
  | .readPage file pageNo => (resultStatus (release.readPage io s file pageNo).1,(release.readPage io s file pageNo).2)
  | .allocPage file => (resultStatus (release.allocPage io s file).1,(release.allocPage io s file).2)
  | .unPinPage file pageNo dirty => release.unPinPage s file pageNo dirty
  | .flushFile file => s.flushFile release.hash io file
  | .modify frame page => (.ok,{s with mgr := s.mgr.setPage frame page})

def start (bufs : Nat) (disk : Disk) : Storage := ⟨.init bufs,disk⟩

def calls (release : Release) (s : Storage) (run : List (Faults × Call)) : Storage :=
  run.foldl (fun s call => (s.call release call.1 call.2).2) s

theorem writeFrame_mgr (io : Faults) (s : Storage) (i : Nat) : (s.writeFrame io i).2.mgr = s.mgr := by
  unfold writeFrame
  cases (s.mgr.bufTable i).file with
  | none => rfl
  | some file => rfl

end Storage

-- What a pinned frame is to keep.
structure Kept (m m' : BufMgr) (i : Nat) : Prop where
  file : (m'.bufTable i).file = (m.bufTable i).file
  pageNo : (m'.bufTable i).pageNo = (m.bufTable i).pageNo
  valid : (m'.bufTable i).valid = (m.bufTable i).valid
  pinCnt : (m'.bufTable i).pinCnt = (m.bufTable i).pinCnt
  page : m'.bufPool i = m.bufPool i

-- What holds of the pool whatever calls are made and whatever fails in them, in both releases: the hash
-- table names frames that hold the page, and no frame that is out of use is pinned.
structure Listed (hash : Hash) (m : BufMgr) : Prop where
  hand : m.clockHand < m.numBufs
  sound : Sound m.hashTable.ht
  listed : ∀ file pageNo i, m.hashTable.find hash file pageNo = some i → i < m.numBufs ∧
    (m.bufTable i).Holds file pageNo
  numbered : ∀ i, i < m.numBufs → (m.bufTable i).frameNo = i
  pins : ∀ i, i < m.numBufs → 0 ≤ (m.bufTable i).pinCnt
  idle : ∀ i, i < m.numBufs → (m.bufTable i).valid = false → (m.bufTable i).pinCnt = 0

def Unlisted (hash : Hash) (m : BufMgr) (i : Nat) : Prop := ∀ file pageNo, m.hashTable.find hash file pageNo ≠ some i

namespace Kept
variable {m m' m'' : BufMgr} {i j : Nat}

theorem refl : Kept m m i := ⟨rfl,rfl,rfl,rfl,rfl⟩

theorem trans (one : Kept m m' i) (two : Kept m' m'' i) : Kept m m'' i :=
  ⟨two.file.trans one.file,two.pageNo.trans one.pageNo,two.valid.trans one.valid,two.pinCnt.trans one.pinCnt,
    two.page.trans one.page⟩

theorem of_same (desc : m'.bufTable i = m.bufTable i) (page : m'.bufPool i = m.bufPool i) : Kept m m' i := by
  refine ⟨?_,?_,?_,?_,page⟩
  all_goals rw [desc]

theorem tick (ticked : Ticked m m') (i : Nat) : Kept m m' i := by
  obtain ⟨b,same⟩ := ticked.descs i
  refine ⟨?_,?_,?_,?_,congrFun ticked.bufPool i⟩
  all_goals rw [same]

theorem setDesc (d : BufDesc) (other : j ≠ i) : Kept m (m.setDesc i d) j :=
    .of_same (BufMgr.setDesc_other _ _ other) rfl
theorem setPage (page : Page) (other : j ≠ i) : Kept m (m.setPage i page) j :=
    .of_same rfl (BufMgr.setPage_other _ _ other)

theorem dropEntry (hash : Hash) : Kept m (m.dropEntry hash i) j := by
  unfold BufMgr.dropEntry
  split
  · exact .of_same rfl rfl
  · exact .refl

end Kept

theorem BufHashTbl.insert_present {hash : Hash} {t : BufHashTbl} {file : FileId} {pageNo : Int} {j : Nat} (i : Nat)
    (present : t.find hash file pageNo = some j) : t.insert hash file pageNo i = (.hashTblError,t) := by
  unfold find at present
  rw [insert,BucketTable.insert_present i present]

namespace Listed
variable {hash : Hash} {m m' : BufMgr} {i : Nat} {file : FileId} {pageNo : Int}

theorem init {bufs : Nat} (some_frame : 1 ≤ bufs) : Listed hash (.init bufs) :=
  ⟨Nat.sub_lt some_frame Nat.zero_lt_one,fun _ => List.nodup_nil,fun _ _ _ found => (by cases found),fun _ _ => rfl,
    fun _ _ => Int.le_refl 0,fun _ _ _ => rfl⟩

theorem tick (inv : Listed hash m) (ticked : Ticked m m') : Listed hash m' := by
  obtain ⟨numBufs,table,_,hand,descs⟩ := ticked
  refine ⟨lt_of_lt_of_eq hand numBufs.symm,?_,?_,?_,?_,?_⟩
  · rw [table]; exact inv.sound
  · intro file pageNo i found
    rw [table] at found
    obtain ⟨b,same⟩ := descs i
    rw [numBufs,same]
    exact inv.listed file pageNo i found
  all_goals
    intro i inside
    obtain ⟨b,same⟩ := descs i
    rw [same]
  · exact inv.numbered i (lt_of_lt_of_eq inside numBufs)
  · exact inv.pins i (lt_of_lt_of_eq inside numBufs)
  · exact inv.idle i (lt_of_lt_of_eq inside numBufs)

-- A descriptor that stays with its page, or one that no entry names.
theorem setDesc (inv : Listed hash m) {d : BufDesc} (same : (∀ g q, (m.bufTable i).Holds g q → d.Holds g q) ∨
    Unlisted hash m i)
    (numbered : d.frameNo = (m.bufTable i).frameNo) (pins : 0 ≤ d.pinCnt) (idle : d.valid = false → d.pinCnt = 0) :
    Listed hash (m.setDesc i d) := by
  have each : ∀ j, j ≠ i → (m.setDesc i d).bufTable j = m.bufTable j := fun j other => BufMgr.setDesc_other _ _ other
  have here : (m.setDesc i d).bufTable i = d := BufMgr.setDesc_same ..
  refine ⟨inv.hand,inv.sound,?_,?_,?_,?_⟩
  · intro g q j found
    obtain ⟨within,holds⟩ := inv.listed g q j found
    refine ⟨within,?_⟩
    rcases eq_or_ne j i with rfl | other
    · rw [here]
      rcases same with same | unlisted
      · exact same g q holds
      · exact absurd found (unlisted g q)
    · rw [each j other]; exact holds
  all_goals
    intro j within
    rcases eq_or_ne j i with rfl | other
  · rw [here,numbered]; exact inv.numbered _ within
  · rw [each j other]; exact inv.numbered j within
  · rw [here]; exact pins
  · rw [each j other]; exact inv.pins j within
  · rw [here]; exact idle
  · rw [each j other]; exact inv.idle j within

theorem setPage (inv : Listed hash m) (page : Page) : Listed hash (m.setPage i page) :=
  ⟨inv.hand,inv.sound,inv.listed,inv.numbered,inv.pins,inv.idle⟩

-- Entries taken out leave entries that were there.
theorem setTable (inv : Listed hash m) {t : BufHashTbl} (sound : Sound t.ht)
    (listed : ∀ file pageNo i, t.find hash file pageNo = some i → i < m.numBufs ∧ (m.bufTable i).Holds file pageNo) :
    Listed hash (m.setTable t) := ⟨inv.hand,sound,listed,inv.numbered,inv.pins,inv.idle⟩

theorem remove (inv : Listed hash m) (file : FileId) (pageNo : Int) :
    Listed hash (m.setTable (m.hashTable.remove hash file pageNo).2) := by
  obtain ⟨sound,find⟩ := BufHashTbl.remove_spec hash file pageNo inv.sound
  refine inv.setTable sound fun g q i found => ?_
  rw [find] at found
  split at found
  · cases found
  · exact inv.listed g q i found

theorem remove_unlisted (inv : Listed hash m) (holds : (m.bufTable i).Holds file pageNo) :
    Unlisted hash (m.setTable (m.hashTable.remove hash file pageNo).2) i := by
  intro g q found
  have found := ((BufHashTbl.remove_spec hash file pageNo inv.sound).2 g q).symm.trans found
  split at found
  · cases found
  · rename_i other
    obtain ⟨_,held⟩ := inv.listed g q i found
    exact other (Prod.ext (Option.some.inj (held.2.1.symm.trans holds.2.1)) (held.2.2.symm.trans holds.2.2))

theorem dropEntry (inv : Listed hash m) (i : Nat) : Listed hash (m.dropEntry hash i) ∧
    Unlisted hash (m.dropEntry hash i) i := by
  unfold BufMgr.dropEntry
  cases named : (m.bufTable i).file with
  | none =>
    refine ⟨inv,fun g q found => ?_⟩
    cases named.symm.trans (inv.listed g q i found).2.2.1
  | some file =>
    refine ⟨inv.remove file _,fun g q found => ?_⟩
    have found' := ((BufHashTbl.remove_spec hash file _ inv.sound).2 g q).symm.trans found
    split at found'
    · cases found'
    · exact inv.remove_unlisted ⟨(inv.listed g q i found').2.1,named,rfl⟩ g q found

theorem invalid_unlisted (inv : Listed hash m) (invalid : (m.bufTable i).valid = false) : Unlisted hash m i := by
  intro g q found
  cases invalid.symm.trans (inv.listed g q i found).2.1

-- Putting a page into a frame that no entry names, whether the table then takes the entry or not.
theorem enter (inv : Listed hash m) (inside : i < m.numBufs) (unlisted : Unlisted hash m i) (file : FileId)
    (pageNo : Int) :
    Listed hash ((m.setDesc i ((m.bufTable i).set file pageNo)).setTable
      ((m.setDesc i ((m.bufTable i).set file pageNo)).hashTable.insert hash file pageNo i).2) := by
  have set := inv.setDesc (d:=(m.bufTable i).set file pageNo) (.inr unlisted) rfl Int.one_nonneg fun none => by
    cases none
  have here : (m.setDesc i ((m.bufTable i).set file pageNo)).bufTable i = (m.bufTable i).set file pageNo :=
    BufMgr.setDesc_same ..
  cases present : m.hashTable.find hash file pageNo with
  | some j =>
    rw [BufHashTbl.insert_present i (show (m.setDesc i ((m.bufTable i).set file pageNo)).hashTable.find hash
      file pageNo = some j from present)]
    exact set
  | none =>
    obtain ⟨t,inserted,sound,find⟩ := BufHashTbl.insert_spec hash i set.sound
      (show (m.setDesc i ((m.bufTable i).set file pageNo)).hashTable.find hash file pageNo = none from present)
    rw [inserted]
    refine set.setTable sound fun g q j found => ?_
    rw [find] at found
    split at found
    · rename_i same
      cases found
      cases same
      exact ⟨inside,by rw [here]; exact ⟨rfl,rfl,rfl⟩⟩
    · exact set.listed g q j found

end Listed

-- What allocBuf does to the pool: reference bits go down, and it may take a frame nobody has pinned.
inductive Searched (hash : Hash) (m : BufMgr) : Except Status Nat → BufMgr → Prop
  | failed {m'} (status : Status) (listed : Listed hash m') (kept : ∀ i, Kept m m' i) :
      Searched hash m (.error status) m'
  | took {m'} (i : Nat) (listed : Listed hash m') (inside : i < m'.numBufs) (unlisted : Unlisted hash m' i)
      (unpinned : (m.bufTable i).pinCnt = 0) (kept : ∀ j, j ≠ i → Kept m m' j)
      (less : ∀ file pageNo, m.hashTable.find hash file pageNo = none → m'.hashTable.find hash file pageNo = none) :
      Searched hash m (.ok i) m'

namespace Searched
variable {hash : Hash} {m t m' : BufMgr} {result : Except Status Nat}

theorem earlier (ticked : Ticked m t) (after : Searched hash t result m') : Searched hash m result m' := by
  have kept := Kept.tick ticked
  cases after with
  | failed status listed later => exact .failed status listed fun i => (kept i).trans (later i)
  | took i listed inside unlisted unpinned later less =>
    refine .took i listed inside unlisted ((kept i).pinCnt.symm.trans unpinned)
      (fun j other => (kept j).trans (later j other)) ?_
    rw [ticked.hashTable] at less
    exact less

-- A frame whose page goes: its entry first, and in one release its descriptor too.
theorem evict (inv : Listed hash m) {i : Nat} (inside : i < m.numBufs) (unpinned : (m.bufTable i).pinCnt = 0) :
    Searched hash m (.ok i) (m.dropEntry hash i) := by
  obtain ⟨listed,unlisted⟩ := inv.dropEntry i
  have size : (m.dropEntry hash i).numBufs = m.numBufs := by unfold BufMgr.dropEntry; split <;> rfl
  refine .took i listed (size ▸ inside) unlisted unpinned (fun j _ => .dropEntry hash) fun g q missing => ?_
  unfold BufMgr.dropEntry
  split
  · refine ((BufHashTbl.remove_spec hash _ _ inv.sound).2 g q).trans ?_
    rw [missing]
    split <;> rfl
  · exact missing

theorem clear {i : Nat} (took : Searched hash m (.ok i) m') {d : BufDesc} (idle : d.pinCnt = 0)
    (numbered : d.frameNo = i) :
    Searched hash m (.ok i) (m'.setDesc i d) := by
  cases took with
  | took _ listed inside unlisted unpinned kept less =>
    refine .took i (listed.setDesc (.inr unlisted) ?_ (Int.le_of_eq idle.symm) fun _ => idle) inside unlisted unpinned
      (fun j other => (kept j other).trans (.setDesc _ other)) less
    rw [numbered,listed.numbered i inside]

theorem later (ticked : Ticked m' t) (before : Searched hash m result m') : Searched hash m result t := by
  have kept := Kept.tick ticked
  cases before with
  | failed status listed earlier => exact .failed status (listed.tick ticked) fun i => (earlier i).trans (kept i)
  | took i listed inside unlisted unpinned earlier less =>
    refine .took i (listed.tick ticked) (lt_of_lt_of_eq inside ticked.numBufs.symm) (fun g q => ?_) unpinned
      (fun j other => (earlier j other).trans (kept j)) fun g q missing => ?_
    · rw [ticked.hashTable]; exact unlisted g q
    · rw [ticked.hashTable]; exact less g q missing

theorem setPage {i : Nat} (took : Searched hash m (.ok i) m') (page : Page) :
    Searched hash m (.ok i) (m'.setPage i page) := by
  cases took with
  | took _ listed inside unlisted unpinned kept less =>
    exact .took i (listed.setPage page) inside unlisted unpinned
      (fun j other => (kept j other).trans (.setPage page other)) less

theorem countRead (searched : Searched hash m result m') : Searched hash m result m'.countRead := by
  have hand : m'.clockHand < m'.numBufs := by cases searched with
    | failed _ listed => exact listed.hand
    | took _ listed => exact listed.hand
  have ticked : Ticked m' m'.countRead := ⟨rfl,rfl,rfl,hand,fun i => ⟨(m'.bufTable i).refbit,rfl⟩⟩
  exact searched.later ticked

-- What a call may do to the pool when it goes for a frame: pinned frames are none of its business.
structure Spares (hash : Hash) (m m' : BufMgr) : Prop where
  listed : Listed hash m'
  spares : ∀ i, 0 < (m.bufTable i).pinCnt → Kept m m' i

theorem spares (searched : Searched hash m result m') : Spares hash m m' := by
  cases searched with
  | failed _ listed kept => exact ⟨listed,fun i _ => kept i⟩
  | took i listed _ _ unpinned kept =>
    refine ⟨listed,fun j pinned => kept j ?_⟩
    rintro rfl
    omega

theorem fill {i : Nat} (took : Searched hash m (.ok i) m') (file : FileId) (pageNo : Int) :
    Spares hash m ((m'.setDesc i ((m'.bufTable i).set file pageNo)).setTable
      ((m'.setDesc i ((m'.bufTable i).set file pageNo)).hashTable.insert hash file pageNo i).2) := by
  cases took with
  | took _ listed inside unlisted unpinned kept =>
    refine ⟨listed.enter inside unlisted file pageNo,fun j pinned => ?_⟩
    have other : j ≠ i := by rintro rfl; omega
    exact (kept j other).trans ((Kept.setDesc _ other).trans (.of_same rfl rfl))

end Searched

namespace Listed
variable {hash : Hash}

theorem repin {m : BufMgr} (inv : Listed hash m) {i : Nat} {file : FileId} {pageNo : Int}
    (present : m.hashTable.find hash file pageNo = some i) {d : BufDesc} (named : d.file = (m.bufTable i).file)
    (page : d.pageNo = (m.bufTable i).pageNo) (valid : d.valid = (m.bufTable i).valid)
    (numbered : d.frameNo = (m.bufTable i).frameNo)
    (pins : 0 ≤ d.pinCnt) : Listed hash (m.setDesc i d) := by
  have holds := (inv.listed file pageNo i present).2
  refine inv.setDesc (.inl fun g q held => ⟨valid.trans held.1,named.trans held.2.1,page.trans held.2.2⟩)
    numbered pins fun none => ?_
  cases holds.1.symm.trans (valid.symm.trans none)

theorem flushFrames {io : Faults} {file : FileId} (turns i : Nat) {s : Storage} (reach : i + turns = s.mgr.numBufs)
    (inv : Listed hash s.mgr) :
    Listed hash (s.flushFrames hash io file turns i).2.mgr := by
  induction turns generalizing i s with
  | zero => exact inv
  | succ turns ih =>
    have inside : i < s.mgr.numBufs := by omega
    unfold Storage.flushFrames
    dsimp only
    by_cases ours : (s.mgr.bufTable i).valid = true ∧ (s.mgr.bufTable i).file = some file
    · rw [if_pos ours]
      by_cases busy : (s.mgr.bufTable i).pinCnt > 0
      · rw [if_pos busy]; exact inv
      · rw [if_neg busy]
        have holds : (s.mgr.bufTable i).Holds file (s.mgr.bufTable i).pageNo := ⟨ours.1,ours.2,rfl⟩
        have low := inv.pins i inside
        have same : (if (s.mgr.bufTable i).dirty = true then s.writeFrame io i else (.ok,s)).2.mgr = s.mgr := by
          split
          · exact Storage.writeFrame_mgr io s i
          · rfl
        generalize (if (s.mgr.bufTable i).dirty = true then s.writeFrame io i else (.ok,s)) = written at same ⊢
        split
        · rw [same]; exact inv
        · refine ih (i+1) (s:=⟨_,written.2.disk⟩) ?_ ?_
          · change i + 1 + turns = written.2.mgr.numBufs
            rw [same]; omega
          · dsimp only
            rw [same]
            refine (inv.remove file _).setDesc (.inr (inv.remove_unlisted holds)) rfl low fun _ => ?_
            dsimp only
            omega
    · rw [if_neg ours]
      split
      · exact inv
      · exact ih (i+1) (by omega) inv

theorem flushFile {io : Faults} {file : FileId} {s : Storage} (inv : Listed hash s.mgr) :
    Listed hash (s.flushFile hash io file).2.mgr :=
  inv.flushFrames s.mgr.numBufs 0 (Nat.zero_add _)

end Listed

-- Both releases' allocPage.
def allocPageBy (hash : Hash) (allocBuf : Faults → Storage → Except Status Nat × Storage) (io : Faults) (s : Storage)
    (file : FileId) : Except Status (Int × Nat) × Storage :=
  let (allocated,unixFile) := File.allocatePage (io file) (s.disk file)
  let s := {s with disk := Function.update s.disk file unixFile}
  match allocated with
  | .error status => (.error status,s)
  | .ok pageNo =>
    match allocBuf io s with
    | (.error status,s) => (.error status,s)
    | (.ok frame,s) =>
      let m := s.mgr.setDesc frame ((s.mgr.bufTable frame).set file pageNo)
      let (status,table) := m.hashTable.insert hash file pageNo frame
      if status ≠ .ok then (.error status,{s with mgr := m.setTable table})
      else (.ok (pageNo,frame),{s with mgr := m.setTable table})

theorem Part3.allocPage_by : Part3.allocPage = allocPageBy Part3.hash Part3.allocBuf := rfl
theorem Stage6.allocPage_by : Stage6.allocPage = allocPageBy Stage6.hash Stage6.allocBuf := rfl

theorem allocPageBy_listed {hash : Hash} {allocBuf : Faults → Storage → Except Status Nat × Storage}
    (searched : ∀ io (s : Storage), Listed hash s.mgr → Searched hash s.mgr (allocBuf io s).1 (allocBuf io s).2.mgr)
    (io : Faults)
    {s : Storage} (inv : Listed hash s.mgr) (file : FileId) : Searched.Spares hash s.mgr
    (allocPageBy hash allocBuf io s file).2.mgr := by
  unfold allocPageBy
  cases File.allocatePage (io file) (s.disk file) with
  | mk number unixFile =>
    dsimp only
    cases number with
    | error status => exact ⟨inv,fun _ _ => .refl⟩
    | ok pageNo =>
      have searched := searched io ⟨s.mgr,Function.update s.disk file unixFile⟩ inv
      dsimp only at searched ⊢
      cases result : allocBuf io ⟨s.mgr,Function.update s.disk file unixFile⟩ with
      | mk outcome s' =>
        rw [result] at searched
        cases outcome with
        | error status => exact searched.spares
        | ok frame =>
          dsimp only at searched ⊢
          split
          · exact searched.fill file pageNo
          · exact searched.fill file pageNo

namespace Part3

theorem allocTurns_searched (io : Faults) (turns : Nat) {s : Storage} (inv : Listed hash s.mgr) :
    Searched hash s.mgr (allocTurns io turns s).1 (allocTurns io turns s).2.mgr := by
  induction turns generalizing s with
  | zero => exact .failed _ inv fun _ => .refl
  | succ turns ih =>
    have inside := inv.hand
    unfold allocTurns
    dsimp only
    by_cases invalid : ¬ (s.mgr.bufTable s.mgr.clockHand).valid = true
    · rw [if_pos invalid]
      have invalid := Bool.eq_false_iff.mpr invalid
      exact .took _ inv inside (inv.invalid_unlisted invalid) (inv.idle _ inside invalid) (fun _ _ => .refl) fun _ _ =>
        id
    · rw [if_neg invalid]
      by_cases referenced : (s.mgr.bufTable s.mgr.clockHand).refbit = true
      · rw [if_pos referenced]
        have ticked := unreferenced inside s.mgr.clockHand
        exact (ih (s:=⟨_,s.disk⟩) (inv.tick ticked)).earlier ticked
      · rw [if_neg referenced]
        by_cases pinned : (s.mgr.bufTable s.mgr.clockHand).pinCnt > 0
        · rw [if_pos pinned]
          exact (ih (s:=⟨_,s.disk⟩) (inv.tick (passed_over inside))).earlier (passed_over inside)
        · rw [if_neg pinned]
          have unpinned : (s.mgr.bufTable s.mgr.clockHand).pinCnt = 0 := by
            have := inv.pins _ inside
            omega
          by_cases dirty : (s.mgr.bufTable s.mgr.clockHand).dirty = true
          · rw [if_pos dirty]
            have same := Storage.writeFrame_mgr io s s.mgr.clockHand
            have counted : Ticked s.mgr s.mgr.countWrite :=
              ⟨rfl,rfl,rfl,inside,fun i => ⟨(s.mgr.bufTable i).refbit,rfl⟩⟩
            cases written : s.writeFrame io s.mgr.clockHand with
            | mk status s' =>
              rw [written] at same
              dsimp only at same ⊢
              rw [same]
              by_cases failed : status ≠ .ok
              · rw [if_pos failed]
                exact .failed status (inv.tick counted) (Kept.tick counted)
              · rw [if_neg failed]
                exact ((Searched.evict (inv.tick counted) inside unpinned).earlier counted).clear
                  rfl (inv.numbered _ inside)
          · rw [if_neg dirty]
            exact (Searched.evict inv inside unpinned).clear rfl (inv.numbered _ inside)

theorem allocBuf_searched (io : Faults) {s : Storage} (inv : Listed hash s.mgr) :
    Searched hash s.mgr (allocBuf io s).1 (allocBuf io s).2.mgr := allocTurns_searched io _ inv

theorem readPage_listed (io : Faults) {s : Storage} (inv : Listed hash s.mgr) (file : FileId) (pageNo : Int) :
    Listed hash (readPage io s file pageNo).2.mgr ∧ (s.mgr.hashTable.find hash file pageNo = none →
      Searched.Spares hash s.mgr (readPage io s file pageNo).2.mgr) := by
  unfold readPage
  cases present : s.mgr.hashTable.find hash file pageNo with
  | some frame =>
    have inside := (inv.listed file pageNo frame present).1
    rw [BufHashTbl.lookup_ok present]
    dsimp only
    rw [findDesc_spec inv.numbered inside]
    refine ⟨inv.repin present rfl rfl rfl rfl ?_,fun none => (by cases none)⟩
    have low := inv.pins frame inside
    dsimp only
    omega
  | none =>
    rw [BufHashTbl.lookup_error present]
    dsimp only
    have searched := allocBuf_searched io inv
    cases result : allocBuf io s with
    | mk outcome s' =>
      rw [result] at searched
      suffices spares : Searched.Spares hash s.mgr _ from ⟨spares.listed,fun _ => spares⟩
      cases outcome with
      | error status => exact searched.spares
      | ok frame =>
        dsimp only at searched ⊢
        split
        · exact searched.countRead.spares
        · rename_i page _
          have filled := searched.countRead.setPage page
          have target : findDesc (s'.mgr.countRead.setPage frame page) frame = some frame := by
            cases filled with
            | took _ listed inside => exact findDesc_spec listed.numbered inside
          rw [target]
          dsimp only
          split
          · exact filled.fill file pageNo
          · exact filled.fill file pageNo

theorem allocPage_listed (io : Faults) {s : Storage} (inv : Listed hash s.mgr) (file : FileId) :
    Searched.Spares hash s.mgr (allocPage io s file).2.mgr :=
  allocPageBy_listed (fun io _ inv => allocBuf_searched io inv) io inv file

theorem unPinPage_listed {s : Storage} (inv : Listed hash s.mgr) (file : FileId) (pageNo : Int) (dirty : Bool) :
    Listed hash (unPinPage s file pageNo dirty).2.mgr := by
  unfold unPinPage
  cases present : s.mgr.hashTable.find hash file pageNo with
  | none => rw [BufHashTbl.lookup_error present]; exact inv
  | some frame =>
    have low := inv.pins frame (inv.listed file pageNo frame present).1
    rw [BufHashTbl.lookup_ok present]
    dsimp only
    split
    · exact inv
    · cases dirty
      · exact inv.repin present rfl rfl rfl rfl (by simp only [Bool.false_eq_true,if_false]; omega)
      · exact inv.repin present rfl rfl rfl rfl (by simp only [if_true]; omega)

theorem call_listed (io : Faults) {s : Storage} (inv : Listed hash s.mgr) (c : Call) :
    Listed hash (s.call release io c).2.mgr := by
  cases c with
  | readPage file pageNo => exact (readPage_listed io inv file pageNo).1
  | allocPage file => exact (allocPage_listed io inv file).listed
  | unPinPage file pageNo dirty => exact unPinPage_listed inv file pageNo dirty
  | flushFile file => exact inv.flushFile
  | modify frame page => exact inv.setPage page

end Part3

namespace Stage6

-- A write-back leaves the pool as it was, but for the count of writes.
theorem written_searched (io : Faults) {m : BufMgr} {s : Storage} {i : Nat} (hand : s.mgr.clockHand < s.mgr.numBufs)
    (works : Searched hash m (.ok i) s.mgr) (fails : ∀ status, Searched hash m (.error status) s.mgr) (dirty : Bool) :
    ∀ result, result = (if dirty then
        let (status,t) := Storage.writeFrame io {s with mgr := s.mgr.countWrite} s.mgr.clockHand
        if status ≠ .ok then (.error status,t) else (.ok i,t)
      else (.ok i,s)) → Searched hash m result.1 result.2.mgr := by
  rintro _ rfl
  have counted : Ticked s.mgr s.mgr.countWrite := ⟨rfl,rfl,rfl,hand,fun i => ⟨(s.mgr.bufTable i).refbit,rfl⟩⟩
  cases dirty with
  | false => exact works
  | true =>
    rw [if_pos rfl]
    have same := Storage.writeFrame_mgr io {s with mgr := s.mgr.countWrite} s.mgr.clockHand
    cases written : Storage.writeFrame io {s with mgr := s.mgr.countWrite} s.mgr.clockHand with
    | mk status t =>
      rw [written] at same
      dsimp only at same ⊢
      split
      · rw [same]; exact (fails status).later counted
      · rw [same]; exact works.later counted

theorem allocBuf_searched (io : Faults) {s : Storage} (inv : Listed hash s.mgr) :
    Searched hash s.mgr (allocBuf io s).1 (allocBuf io s).2.mgr := by
  obtain ⟨ticked,found,stopped⟩ := sweep_spec (2 * s.mgr.numBufs) s.mgr inv.hand
  have listed := inv.tick ticked
  unfold allocBuf
  generalize sweep (2 * s.mgr.numBufs) s.mgr = swept at ticked found stopped listed ⊢
  obtain ⟨m,left,hit⟩ := swept
  dsimp only at *
  have inside := listed.hand
  cases hit with
  | false =>
    simp only [Bool.false_eq_true,if_false,not_false_eq_true,true_and]
    by_cases ended : left = 0
    · rw [if_pos ended]
      exact .failed _ listed (Kept.tick ticked)
    · rw [if_neg ended]
      have invalid := stopped rfl ended
      refine written_searched io (s:=⟨m,s.disk⟩) inside (Searched.earlier ticked ?_)
        (fun _ => .failed _ listed (Kept.tick ticked))
        (m.bufTable m.clockHand).dirty _ rfl
      exact .took _ listed inside (listed.invalid_unlisted invalid) (listed.idle _ inside invalid)
        (fun _ _ => .refl) fun _ _ => id
  | true =>
    simp only [if_true,not_true_eq_false,false_and,if_false]
    obtain ⟨_,unpinned⟩ := found rfl
    have hand : (m.dropEntry hash m.clockHand).clockHand = m.clockHand := by unfold BufMgr.dropEntry; split <;> rfl
    have size : (m.dropEntry hash m.clockHand).numBufs = m.numBufs := by unfold BufMgr.dropEntry; split <;> rfl
    have evicted := Searched.evict listed inside unpinned
    have dropped := (listed.dropEntry m.clockHand).1
    refine written_searched io (s:=⟨m.dropEntry hash m.clockHand,s.disk⟩) (i:=(m.dropEntry hash m.clockHand).clockHand)
      (by rw [hand,size]; exact inside) ?_ (fun _ => .failed _ dropped fun i => (Kept.tick ticked i).trans
        (.dropEntry hash)) _ _ rfl
    rw [hand]
    exact evicted.earlier ticked

theorem readPage_listed (io : Faults) {s : Storage} (inv : Listed hash s.mgr) (file : FileId) (pageNo : Int) :
    Listed hash (readPage io s file pageNo).2.mgr ∧ (s.mgr.hashTable.find hash file pageNo = none →
      Searched.Spares hash s.mgr (readPage io s file pageNo).2.mgr) := by
  unfold readPage
  cases present : s.mgr.hashTable.find hash file pageNo with
  | some frame =>
    have low := inv.pins frame (inv.listed file pageNo frame present).1
    rw [BufHashTbl.lookup_ok present]
    refine ⟨inv.repin present rfl rfl rfl rfl ?_,fun none => (by cases none)⟩
    dsimp only
    omega
  | none =>
    rw [BufHashTbl.lookup_error present]
    dsimp only
    have searched := allocBuf_searched io inv
    cases result : allocBuf io s with
    | mk outcome s' =>
      rw [result] at searched
      suffices spares : Searched.Spares hash s.mgr _ from ⟨spares.listed,fun _ => spares⟩
      cases outcome with
      | error status => exact searched.spares
      | ok frame =>
        dsimp only at searched ⊢
        split
        · exact searched.countRead.spares
        · rename_i page _
          have filled := (searched.countRead.setPage page).fill file pageNo
          split
          · exact filled
          · exact filled

theorem allocPage_listed (io : Faults) {s : Storage} (inv : Listed hash s.mgr) (file : FileId) :
    Searched.Spares hash s.mgr (allocPage io s file).2.mgr :=
  allocPageBy_listed (fun io _ inv => allocBuf_searched io inv) io inv file

theorem unPinPage_listed {s : Storage} (inv : Listed hash s.mgr) (file : FileId) (pageNo : Int) (dirty : Bool) :
    Listed hash (unPinPage s file pageNo dirty).2.mgr := by
  unfold unPinPage
  cases present : s.mgr.hashTable.find hash file pageNo with
  | none => rw [BufHashTbl.lookup_error present]; exact inv
  | some frame =>
    have low := inv.pins frame (inv.listed file pageNo frame present).1
    rw [BufHashTbl.lookup_ok present]
    dsimp only
    cases dirty
    · simp only [Bool.false_eq_true,if_false]
      split
      · exact inv.repin present rfl rfl rfl rfl low
      · exact inv.repin present rfl rfl rfl rfl (by dsimp only; omega)
    · simp only [if_true]
      split
      · exact inv.repin present rfl rfl rfl rfl low
      · exact inv.repin present rfl rfl rfl rfl (by dsimp only; omega)

theorem call_listed (io : Faults) {s : Storage} (inv : Listed hash s.mgr) (c : Call) :
    Listed hash (s.call release io c).2.mgr := by
  cases c with
  | readPage file pageNo => exact (readPage_listed io inv file pageNo).1
  | allocPage file => exact (allocPage_listed io inv file).listed
  | unPinPage file pageNo dirty => exact unPinPage_listed inv file pageNo dirty
  | flushFile file => exact inv.flushFile
  | modify frame page => exact inv.setPage page

end Stage6

theorem calls_listed {release : Release} {hash : Hash} (step : ∀ io (s : Storage) c, Listed hash s.mgr →
    Listed hash (s.call release io c).2.mgr)
    (run : List (Faults × Call)) {s : Storage} (inv : Listed hash s.mgr) : Listed hash (s.calls release run).mgr := by
  induction run generalizing s with
  | nil => exact inv
  | cons call rest ih => exact ih (step call.1 s call.2 inv)

end Minirel
