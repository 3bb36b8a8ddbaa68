import Minirel.BufClients
import Mathlib.Data.List.Perm.Basic

namespace Minirel
open BucketTable

def BufHashTbl.find (hash : Hash) (t : BufHashTbl) (file : FileId) (pageNo : Int) : Option Nat :=
  BucketTable.lookup (hash t.htSize) t.ht (file,pageNo)

theorem BufHashTbl.lookup_ok {hash : Hash} {t : BufHashTbl} {file : FileId} {pageNo : Int} {i : Nat}
    (found : t.find hash file pageNo = some i) : t.lookup hash file pageNo = .ok i := by
  unfold find at found
  rw [lookup,found]

theorem BufHashTbl.lookup_error {hash : Hash} {t : BufHashTbl} {file : FileId} {pageNo : Int}
    (missing : t.find hash file pageNo = none) : t.lookup hash file pageNo = .error .hashNotFound := by
  unfold find at missing
  rw [lookup,missing]

theorem BufHashTbl.insert_spec (hash : Hash) {t : BufHashTbl} {file : FileId} {pageNo : Int} (i : Nat)
    (sound : Sound t.ht) (missing : t.find hash file pageNo = none) :
    ∃ t', t.insert hash file pageNo i = (.ok,t') ∧ Sound t'.ht ∧
      ∀ g q, t'.find hash g q = if (g,q) = (file,pageNo) then some i else t.find hash g q := by
  obtain ⟨ht,inserted⟩ := insert_fresh i (show BucketTable.lookup (hash t.htSize) t.ht (file,pageNo) =
    none from missing)
  exact ⟨{t with ht := ht},by rw [insert,inserted],insert_sound sound inserted,fun g q => lookup_insert inserted (g,q)⟩

theorem BufHashTbl.remove_spec (hash : Hash) {t : BufHashTbl} (file : FileId) (pageNo : Int) (sound : Sound t.ht) :
    Sound (t.remove hash file pageNo).2.ht ∧
      ∀ g q, (t.remove hash file pageNo).2.find hash g q = if (g,q) = (file,pageNo) then none else t.find hash g q := by
  unfold remove
  cases removed : BucketTable.remove (hash t.htSize) t.ht (file,pageNo) with
  | some ht => exact ⟨remove_sound sound removed,fun g q => lookup_remove sound removed (g,q)⟩
  | none =>
    refine ⟨sound,fun g q => ?_⟩
    have missing : t.find hash file pageNo = none := by
      unfold find
      cases present : BucketTable.lookup (hash t.htSize) t.ht (file,pageNo) with
      | none => rfl
      | some i =>
        obtain ⟨ht,gone⟩ := remove_present present
        rw [gone] at removed
        cases removed
    by_cases same : (g,q) = (file,pageNo)
    · cases same
      rw [if_pos rfl]
      exact missing
    · rw [if_neg same]

def BufDesc.Holds (d : BufDesc) (file : FileId) (pageNo : Int) : Prop :=
  d.valid = true ∧ d.file = some file ∧ d.pageNo = pageNo

structure BufDesc.Idle (d : BufDesc) : Prop where
  valid : d.valid = false
  file : d.file = none
  dirty : d.dirty = false
  pinCnt : d.pinCnt = 0

def pinsOn (pins : List Pin) (file : FileId) (pageNo : Int) : Nat := pins.countP (·.on file pageNo)

def Unmodified (pins : List Pin) (file : FileId) (pageNo : Int) : Prop :=
  ∀ pin ∈ pins, pin.on file pageNo = true → pin.modified = false

theorem Pin.on_iff {pin : Pin} {file : FileId} {pageNo : Int} :
    pin.on file pageNo = true ↔ pin.file = file ∧ pin.pageNo = pageNo := by simp [Pin.on]

theorem pinsOn_on {pins : List Pin} {pin : Pin} {file : FileId} {pageNo : Int} (on : pin.on file pageNo = true) :
    pinsOn (pin::pins) file pageNo = pinsOn pins file pageNo + 1 :=
  List.countP_cons_of_pos on

theorem pinsOn_off {pins : List Pin} {pin : Pin} {file : FileId} {pageNo : Int} (off : ¬ pin.on file pageNo = true) :
    pinsOn (pin::pins) file pageNo = pinsOn pins file pageNo :=
  List.countP_cons_of_neg off

-- A frame that holds a page: the pool has its last contents, and so has the disk
-- unless the frame is dirty or a pin still has to be given back as dirty.
structure Used (d : BufDesc) (page : Page) (disk : Disk) (last : Contents) (pins : List Pin) (file : FileId) :
    Prop where
  pinned : d.pinCnt = pinsOn pins file d.pageNo
  contents : last file d.pageNo = some page
  stored : (File.at? (disk file) d.pageNo).isSome
  clean : d.dirty = false → Unmodified pins file d.pageNo →
    1 ≤ d.pageNo ∧ File.at? (disk file) d.pageNo = last file d.pageNo

structure FrameOk (d : BufDesc) (i : Nat) (page : Page) (disk : Disk) (last : Contents) (pins : List Pin) : Prop where
  frameNo : d.frameNo = i
  idle : d.valid = false → d.Idle
  used : d.valid = true → ∃ file, d.file = some file ∧ Used d page disk last pins file

-- The invariant that ties the hash table, the frames, the pool bytes and the disk to
-- what the clients know. Page 0 of a file is the File layer's own.
structure Consistent (hash : Hash) (m : BufMgr) (disk : Disk) (last : Contents) (pins : List Pin) : Prop where
  hand : m.clockHand < m.numBufs
  sound : Sound m.hashTable.ht
  index : ∀ file pageNo i, m.hashTable.find hash file pageNo = some i ↔ i < m.numBufs ∧ (m.bufTable i).Holds file pageNo
  frames : ∀ i, i < m.numBufs → FrameOk (m.bufTable i) i (m.bufPool i) disk last pins
  held : ∀ pin ∈ pins, m.hashTable.find hash pin.file pin.pageNo = some pin.frame
  away : ∀ file pageNo, 1 ≤ pageNo → m.hashTable.find hash file pageNo = none →
    File.at? (disk file) pageNo = last file pageNo
  counted : ∀ file, File.Counted (disk file)

namespace Consistent
variable {hash : Hash} {m : BufMgr} {disk : Disk} {last : Contents} {pins : List Pin}
variable {i : Nat} {file : FileId} {pageNo : Int}

theorem init {bufs : Nat} (some_frame : 1 ≤ bufs) (counted : ∀ file, File.Counted (disk file)) :
    Consistent hash (.init bufs) disk (fun file => File.at? (disk file)) [] := by
  have nowhere : ∀ file pageNo, (BufMgr.init bufs).hashTable.find hash file pageNo = none := fun _ _ => rfl
  constructor
  case hand => exact Nat.sub_lt some_frame Nat.zero_lt_one
  case sound => intro i; exact List.nodup_nil
  case index =>
    intro file pageNo i
    rw [nowhere]
    constructor
    · intro found; cases found
    · rintro ⟨_,valid,_⟩; cases valid
  case frames =>
    intro i _
    exact ⟨rfl,fun _ => ⟨rfl,rfl,rfl,rfl⟩,fun valid => (by cases valid)⟩
  case held => intro pin member; cases member
  case away => intro file pageNo _ _; rfl
  case counted => exact counted

theorem used (inv : Consistent hash m disk last pins) (inside : i < m.numBufs)
    (holds : (m.bufTable i).Holds file pageNo) :
    Used (m.bufTable i) (m.bufPool i) disk last pins file := by
  obtain ⟨g,named,used⟩ := (inv.frames i inside).used holds.1
  cases Option.some.inj (named.symm.trans holds.2.1)
  exact used

theorem found (inv : Consistent hash m disk last pins) (found : m.hashTable.find hash file pageNo = some i) :
    i < m.numBufs ∧ (m.bufTable i).Holds file pageNo := (inv.index file pageNo i).mp found

theorem holder_unique (inv : Consistent hash m disk last pins) {j : Nat} (inside : i < m.numBufs)
    (within : j < m.numBufs)
    (one : (m.bufTable i).Holds file pageNo) (two : (m.bufTable j).Holds file pageNo) : i = j :=
  Option.some.inj (((inv.index file pageNo i).mpr ⟨inside,one⟩).symm.trans ((inv.index file pageNo j).mpr ⟨within,two⟩))

theorem pins_zero (inv : Consistent hash m disk last pins) (inside : i < m.numBufs)
    (holds : (m.bufTable i).Holds file pageNo) (unpinned : (m.bufTable i).pinCnt = 0) :
    ∀ pin ∈ pins, ¬ pin.on file pageNo = true := by
  have none := (inv.used inside holds).pinned
  rw [unpinned,holds.2.2] at none
  have zero : pinsOn pins file pageNo = 0 := by omega
  exact List.countP_eq_zero.mp zero

-- A page the disk does not have is in no frame.
theorem unknown (inv : Consistent hash m disk last pins) (absent : File.at? (disk file) pageNo = none) :
    m.hashTable.find hash file pageNo = none := by
  cases found : m.hashTable.find hash file pageNo with
  | none => rfl
  | some i =>
    obtain ⟨inside,holds⟩ := inv.found found
    have stored := (inv.used inside holds).stored
    rw [holds.2.2,absent] at stored
    cases stored

theorem held_contents (inv : Consistent hash m disk last pins) {pin : Pin} (member : pin ∈ pins) :
    last pin.file pin.pageNo = some (m.bufPool pin.frame) := by
  obtain ⟨inside,holds⟩ := inv.found (inv.held pin member)
  have contents := (inv.used inside holds).contents
  rwa [holds.2.2] at contents

-- Reference bits, the clock hand and the statistics carry no content.
structure Ticked (m m' : BufMgr) : Prop where
  numBufs : m'.numBufs = m.numBufs
  hashTable : m'.hashTable = m.hashTable
  bufPool : m'.bufPool = m.bufPool
  hand : m'.clockHand < m.numBufs
  descs : ∀ i, ∃ b, m'.bufTable i = {m.bufTable i with refbit := b}

theorem Ticked.refl (hand : m.clockHand < m.numBufs) : Ticked m m :=
  ⟨rfl,rfl,rfl,hand,fun i => ⟨(m.bufTable i).refbit,rfl⟩⟩

theorem Ticked.trans {m' m'' : BufMgr} (one : Ticked m m') (two : Ticked m' m'') : Ticked m m'' := by
  refine ⟨two.numBufs.trans one.numBufs,two.hashTable.trans one.hashTable,two.bufPool.trans one.bufPool,
    lt_of_lt_of_eq two.hand one.numBufs,fun i => ?_⟩
  obtain ⟨b,first⟩ := one.descs i
  obtain ⟨c,second⟩ := two.descs i
  exact ⟨c,by rw [second,first]⟩

theorem tick (inv : Consistent hash m disk last pins) {m' : BufMgr} (ticked : Ticked m m') :
    Consistent hash m' disk last pins := by
  obtain ⟨numBufs,table,pool,hand,descs⟩ := ticked
  constructor
  case hand => exact lt_of_lt_of_eq hand numBufs.symm
  case sound => rw [table]; exact inv.sound
  case index =>
    intro file pageNo i
    obtain ⟨b,same⟩ := descs i
    rw [table,numBufs,same]
    exact inv.index file pageNo i
  case frames =>
    intro i inside
    obtain ⟨b,same⟩ := descs i
    obtain ⟨frameNo,idle,used⟩ := inv.frames i (lt_of_lt_of_eq inside numBufs)
    rw [same,pool]
    refine ⟨frameNo,fun invalid => ?_,fun valid => ?_⟩
    · obtain ⟨_,file,dirty,pinCnt⟩ := idle invalid
      exact ⟨invalid,file,dirty,pinCnt⟩
    · obtain ⟨file,named,use⟩ := used valid
      exact ⟨file,named,use.pinned,use.contents,use.stored,use.clean⟩
  case held => rw [table]; exact inv.held
  case away => rw [table]; exact inv.away
  case counted => exact inv.counted

-- Changing what is recorded about one pin of one page leaves every other frame alone.
theorem other_frame (inv : Consistent hash m disk last pins) {j : Nat} (inside : i < m.numBufs)
    (holds : (m.bufTable i).Holds file pageNo) (within : j < m.numBufs) (other : j ≠ i) {pins' : List Pin}
    (counts : ∀ g q, ¬ (file = g ∧ pageNo = q) → pinsOn pins' g q = pinsOn pins g q)
    (marks : ∀ g q, ¬ (file = g ∧ pageNo = q) → Unmodified pins' g q → Unmodified pins g q)
    {last' : Contents} (same_last : ∀ g q, ¬ (file = g ∧ pageNo = q) → last' g q = last g q) :
    FrameOk (m.bufTable j) j (m.bufPool j) disk last' pins' := by
  obtain ⟨frameNo,idle,used⟩ := inv.frames j within
  refine ⟨frameNo,idle,fun valid => ?_⟩
  obtain ⟨g,named,use⟩ := used valid
  have elsewhere : ¬ (file = g ∧ pageNo = (m.bufTable j).pageNo) := by
    rintro ⟨rfl,same⟩
    exact other (inv.holder_unique within inside ⟨valid,named,same.symm⟩ holds)
  refine ⟨g,named,?_,?_,use.stored,fun dirty still => ?_⟩
  · rw [counts _ _ elsewhere]; exact use.pinned
  · rw [same_last _ _ elsewhere]; exact use.contents
  · rw [same_last _ _ elsewhere]; exact use.clean dirty (marks _ _ elsewhere still)

-- A descriptor that names the same page keeps the index.
theorem index_kept (inv : Consistent hash m disk last pins) {d : BufDesc}
    (same : ∀ g q, d.Holds g q ↔ (m.bufTable i).Holds g q) (g : FileId) (q : Int) (j : Nat) :
    (m.setDesc i d).hashTable.find hash g q = some j ↔
      j < (m.setDesc i d).numBufs ∧ ((m.setDesc i d).bufTable j).Holds g q := by
  refine (inv.index g q j).trans (and_congr_right fun _ => ?_)
  rcases eq_or_ne j i with rfl | other
  · rw [BufMgr.setDesc_same]; exact (same g q).symm
  · rw [BufMgr.setDesc_other _ _ other]

-- A frame may get another descriptor that names its page, when pins on that page only change with it.
theorem redesc (inv : Consistent hash m disk last pins) (inside : i < m.numBufs)
    (holds : (m.bufTable i).Holds file pageNo) {d : BufDesc}
    {pins' : List Pin} (frameNo : d.frameNo = (m.bufTable i).frameNo) (same : ∀ g q, d.Holds g q ↔
      (m.bufTable i).Holds g q)
    (use : Used d (m.bufPool i) disk last pins' file)
    (counts : ∀ g q, ¬ (file = g ∧ pageNo = q) → pinsOn pins' g q = pinsOn pins g q)
    (marks : ∀ g q, ¬ (file = g ∧ pageNo = q) → Unmodified pins' g q → Unmodified pins g q)
    (held : ∀ pin ∈ pins', m.hashTable.find hash pin.file pin.pageNo = some pin.frame) :
    Consistent hash (m.setDesc i d) disk last pins' := by
  obtain ⟨valid,named,_⟩ := (same file pageNo).mpr holds
  constructor
  case hand => exact inv.hand
  case sound => exact inv.sound
  case index => exact inv.index_kept same
  case frames =>
    intro j within
    rcases eq_or_ne j i with rfl | other
    · rw [BufMgr.setDesc_same]
      exact ⟨frameNo.trans (inv.frames j within).frameNo,fun invalid => (by cases valid.symm.trans invalid),fun _ =>
        ⟨file,named,use⟩⟩
    · rw [BufMgr.setDesc_other _ _ other]
      exact inv.other_frame inside holds within other counts marks fun _ _ _ => rfl
  case held => exact held
  case away => exact inv.away
  case counted => exact inv.counted

theorem pin_hit (inv : Consistent hash m disk last pins) (present : m.hashTable.find hash file pageNo = some i) :
    Consistent hash (m.setDesc i {m.bufTable i with pinCnt := (m.bufTable i).pinCnt + 1, refbit := true}) disk last
      (⟨file,pageNo,i,false⟩::pins) := by
  obtain ⟨inside,holds⟩ := inv.found present
  have use := inv.used inside holds
  refine inv.redesc inside holds ?_ (fun _ _ => Iff.rfl) ?_ ?_ ?_ ?_
  · rfl
  · refine ⟨?_,use.contents,use.stored,?_⟩
    · dsimp only
      rw [pinsOn_on (Pin.on_iff.mpr ⟨rfl,holds.2.2.symm⟩),use.pinned,Nat.cast_add,Nat.cast_one]
    · exact fun dirty still => use.clean dirty fun pin member => still pin (List.mem_cons_of_mem _ member)
  · exact fun g q elsewhere => pinsOn_off fun on => elsewhere (Pin.on_iff.mp on)
  · exact fun g q _ still pin member => still pin (List.mem_cons_of_mem _ member)
  · exact List.forall_mem_cons.mpr ⟨present,inv.held⟩

theorem pin_member {n : Nat} {pin : Pin} (chosen : pins[n]? = some pin) : pin ∈ pins := List.mem_of_getElem? chosen

theorem pins_split {n : Nat} {pin : Pin} (chosen : pins[n]? = some pin) : pins.Perm (pin::pins.eraseIdx n) := by
  obtain ⟨bound,here⟩ := List.getElem?_eq_some_iff.mp chosen
  have parts := (List.getElem_cons_eraseIdx_perm bound).symm
  rwa [here] at parts

theorem pinsOn_split {n : Nat} {pin : Pin} (chosen : pins[n]? = some pin) (file : FileId) (pageNo : Int) :
    pinsOn pins file pageNo = pinsOn (pins.eraseIdx n) file pageNo + if pin.on file pageNo then 1 else 0 := by
  rw [pinsOn,(pins_split chosen).countP_eq,List.countP_cons]
  rfl

-- The frame of a held pin counts that pin.
theorem held_pinned (inv : Consistent hash m disk last pins) {pin : Pin} (member : pin ∈ pins) :
    0 < (m.bufTable pin.frame).pinCnt := by
  obtain ⟨inside,holds⟩ := inv.found (inv.held pin member)
  rw [(inv.used inside holds).pinned]
  exact Int.natCast_pos.mpr (List.countP_pos_iff.mpr ⟨pin,member,Pin.on_iff.mpr ⟨rfl,holds.2.2.symm⟩⟩)

theorem unpin (inv : Consistent hash m disk last pins) {n : Nat} {pin : Pin} (chosen : pins[n]? = some pin)
    {dirty : Bool}
    (kept : (m.bufTable pin.frame).dirty = true → dirty = true) (told : pin.modified = true → dirty = true) :
    Consistent hash (m.setDesc pin.frame {m.bufTable pin.frame with pinCnt := (m.bufTable pin.frame).pinCnt - 1, dirty := dirty})
      disk last (pins.eraseIdx n) := by
  have member := pin_member chosen
  obtain ⟨inside,holds⟩ := inv.found (inv.held pin member)
  have use := inv.used inside holds
  have others : ∀ g q, ¬ (pin.file = g ∧ pin.pageNo = q) → pin.on g q = false := by
    intro g q elsewhere
    exact Bool.eq_false_iff.mpr fun on => elsewhere (Pin.on_iff.mp on)
  refine inv.redesc inside holds ?_ (fun _ _ => Iff.rfl) ?_ ?_ ?_ ?_
  · rfl
  · refine ⟨?_,use.contents,use.stored,fun clean still => ?_⟩
    · have one_less := pinsOn_split chosen pin.file (m.bufTable pin.frame).pageNo
      rw [if_pos (Pin.on_iff.mpr ⟨rfl,holds.2.2.symm⟩)] at one_less
      dsimp only
      rw [use.pinned,one_less]
      omega
    · refine use.clean (Bool.eq_false_iff.mpr fun was => ?_) fun p old on => ?_
      · cases clean.symm.trans (kept was)
      · -- The pin given back had not modified the page, the others still hold theirs.
        rcases List.mem_cons.mp ((pins_split chosen).mem_iff.mp old) with rfl | rest
        · exact Bool.eq_false_iff.mpr fun changed => by cases clean.symm.trans (told changed)
        · exact still p rest on
  · intro g q elsewhere
    rw [pinsOn_split chosen g q,others g q elsewhere]
    rfl
  · intro g q elsewhere still p old on
    rcases List.mem_cons.mp ((pins_split chosen).mem_iff.mp old) with rfl | rest
    · rw [others g q elsewhere] at on
      cases on
    · exact still p rest on
  · exact fun p old => inv.held p (List.mem_of_mem_eraseIdx old)

-- unPinPage may set the dirty bit of a page nobody has pinned.
theorem mark (inv : Consistent hash m disk last pins) (present : m.hashTable.find hash file pageNo = some i)
    (dirty : Bool)
    (kept : (m.bufTable i).dirty = true → dirty = true) :
    Consistent hash (m.setDesc i {m.bufTable i with dirty := dirty}) disk last pins := by
  obtain ⟨inside,holds⟩ := inv.found present
  have use := inv.used inside holds
  refine inv.redesc inside holds ?_ (fun _ _ => Iff.rfl) ?_ ?_ ?_ ?_
  · rfl
  · refine ⟨use.pinned,use.contents,use.stored,fun clean => use.clean ?_⟩
    exact Bool.eq_false_iff.mpr fun was => by cases clean.symm.trans (kept was)
  · exact fun _ _ _ => rfl
  · exact fun _ _ _ still => still
  · exact inv.held

theorem modify (inv : Consistent hash m disk last pins) {n : Nat} {pin : Pin} (chosen : pins[n]? = some pin)
    (page : Page) :
    Consistent hash (m.setPage pin.frame page) disk (System.update last pin.file pin.pageNo page)
      (pins.set n {pin with modified := true}) := by
  have member := pin_member chosen
  obtain ⟨inside,holds⟩ := inv.found (inv.held pin member)
  have bound := (List.getElem?_eq_some_iff.mp chosen).1
  have counts : ∀ g q, pinsOn (pins.set n {pin with modified := true}) g q = pinsOn pins g q := by
    intro g q
    rw [pinsOn_split chosen,pinsOn,(List.set_perm_cons_eraseIdx bound _).countP_eq,List.countP_cons]
    rfl
  have changed : {pin with modified := true} ∈ pins.set n {pin with modified := true} :=
    List.mem_of_getElem? (by rw [List.getElem?_set_self bound])
  constructor
  case hand => exact inv.hand
  case sound => exact inv.sound
  case index => exact inv.index
  case frames =>
    intro j within
    rcases eq_or_ne j pin.frame with rfl | other
    · obtain ⟨frameNo,_,_⟩ := inv.frames _ within
      have use := inv.used inside holds
      rw [BufMgr.setPage_same]
      refine ⟨frameNo,fun invalid => (by cases holds.1.symm.trans invalid),fun _ =>
        ⟨pin.file,holds.2.1,?_,?_,use.stored,fun _ still => ?_⟩⟩
      · rw [counts]; exact use.pinned
      · exact if_pos ⟨rfl,holds.2.2⟩
      · cases still _ changed (Pin.on_iff.mpr ⟨rfl,holds.2.2.symm⟩)
    · rw [BufMgr.setPage_other _ _ other]
      refine inv.other_frame inside holds within other (fun g q _ => counts g q) ?_ ?_
      · intro g q elsewhere still p old on
        obtain ⟨k,here⟩ := List.mem_iff_getElem?.mp old
        rcases eq_or_ne k n with rfl | apart
        · cases here.symm.trans chosen
          exact absurd (Pin.on_iff.mp on) elsewhere
        · exact still p (List.mem_of_getElem? (by rw [List.getElem?_set_ne (Ne.symm apart)]; exact here)) on
      · intro g q elsewhere
        exact if_neg fun same => elsewhere ⟨same.1.symm,same.2.symm⟩
  case held =>
    intro p old
    rcases List.mem_or_eq_of_mem_set old with before | rfl
    · exact inv.held p before
    · exact inv.held pin member
  case away =>
    intro g q low missing
    have elsewhere : ¬ (g = pin.file ∧ q = pin.pageNo) := by
      rintro ⟨rfl,rfl⟩
      cases missing.symm.trans (inv.held pin member)
    rw [System.update,if_neg elsewhere]
    exact inv.away g q low missing
  case counted => exact inv.counted

theorem at_update (disk : Disk) (file g : FileId) (unixFile : UnixFile) (q : Int) :
    File.at? (Function.update disk file unixFile g) q = if g = file then File.at? unixFile q else File.at?
      (disk g) q := by
  rcases eq_or_ne g file with rfl | other
  · rw [Function.update_self,if_pos rfl]
  · rw [Function.update_of_ne other,if_neg other]

-- Writing a frame back changes one page of the disk, to what the clients left in it.
theorem write (inv : Consistent hash m disk last pins) (inside : i < m.numBufs)
    (holds : (m.bufTable i).Holds file pageNo)
    {io : Io} {unixFile : UnixFile} (written : File.writePage io (disk file) pageNo (m.bufPool i) = (.ok,unixFile)) :
    Consistent hash m (Function.update disk file unixFile) last pins ∧
      File.at? (Function.update disk file unixFile file) pageNo = last file pageNo ∧
      ∀ g q, ¬ (g = file ∧ q = pageNo) → File.at? (Function.update disk file unixFile g) q = File.at? (disk g) q := by
  have use := inv.used inside holds
  have stored := use.stored
  have contents := use.contents
  rw [holds.2.2] at stored contents
  obtain ⟨old,present⟩ := Option.isSome_iff_exists.mp stored
  have low := File.writePage_low written
  have after : ∀ g q, File.at? (Function.update disk file unixFile g) q =
      if g = file ∧ q = pageNo then some (m.bufPool i) else File.at? (disk g) q := by
    intro g q
    rw [at_update]
    by_cases same : g = file
    · subst g
      rw [if_pos rfl,File.at_writePage present written]
      simp
    · rw [if_neg same,if_neg fun both => same both.1]
  have here : File.at? (Function.update disk file unixFile file) pageNo = last file pageNo := by
    rw [after,if_pos ⟨rfl,rfl⟩,contents]
  have kept : ∀ g q, ¬ (g = file ∧ q = pageNo) →
      File.at? (Function.update disk file unixFile g) q = File.at? (disk g) q := fun g q other => by
        rw [after,if_neg other]
  refine ⟨⟨inv.hand,inv.sound,inv.index,?_,inv.held,?_,?_⟩,here,kept⟩
  · intro j within
    obtain ⟨frameNo,idle,used⟩ := inv.frames j within
    refine ⟨frameNo,idle,fun valid => ?_⟩
    obtain ⟨g,named,its⟩ := used valid
    by_cases same : g = file ∧ (m.bufTable j).pageNo = pageNo
    · obtain ⟨rfl,equal⟩ := same
      refine ⟨g,named,its.pinned,its.contents,?_,fun _ _ => ?_⟩
      · rw [equal,here,contents]; rfl
      · rw [equal]; exact ⟨low,here⟩
    · refine ⟨g,named,its.pinned,its.contents,?_,fun dirty still => ?_⟩
      · rw [kept _ _ same]; exact its.stored
      · rw [kept _ _ same]; exact its.clean dirty still
  · intro g q least missing
    by_cases same : g = file ∧ q = pageNo
    · obtain ⟨rfl,rfl⟩ := same; exact here
    · rw [kept _ _ same]; exact inv.away g q least missing
  · intro g
    rcases eq_or_ne g file with rfl | other
    · rw [Function.update_self]; exact File.writePage_counted (inv.counted g) present written
    · rw [Function.update_of_ne other]; exact inv.counted g

-- An unpinned frame whose page the disk holds may be given up.
theorem vacate (inv : Consistent hash m disk last pins) (inside : i < m.numBufs)
    (holds : (m.bufTable i).Holds file pageNo)
    (unpinned : (m.bufTable i).pinCnt = 0) (safe : 1 ≤ pageNo → File.at? (disk file) pageNo = last file pageNo)
    {d : BufDesc} (idle : d.Idle) (numbered : d.frameNo = i) :
    Consistent hash ((m.setTable (m.hashTable.remove hash file pageNo).2).setDesc i d) disk last pins := by
  obtain ⟨sound,find⟩ := BufHashTbl.remove_spec hash file pageNo inv.sound
  have nobody := inv.pins_zero inside holds unpinned
  constructor
  case hand => exact inv.hand
  case sound => exact sound
  case index =>
    intro g q j
    refine (iff_of_eq (congrArg (· = some j) (find g q))).trans ?_
    by_cases same : (g,q) = (file,pageNo)
    · rw [if_pos same]
      cases same
      refine ⟨fun none => (by cases none),?_⟩
      rintro ⟨within,held⟩
      rcases eq_or_ne j i with rfl | other
      · rw [BufMgr.setDesc_same] at held
        cases idle.valid.symm.trans held.1
      · rw [BufMgr.setDesc_other _ _ other] at held
        exact absurd (inv.holder_unique within inside held holds) other
    · rw [if_neg same]
      refine (inv.index g q j).trans (and_congr_right fun _ => ?_)
      rcases eq_or_ne j i with rfl | other
      · rw [BufMgr.setDesc_same]
        refine ⟨fun held => absurd ?_ same,fun held => ?_⟩
        · exact Prod.ext (Option.some.inj (held.2.1.symm.trans holds.2.1)) (held.2.2.symm.trans holds.2.2)
        · cases idle.valid.symm.trans held.1
      · rw [BufMgr.setDesc_other _ _ other]
        exact Iff.rfl
  case frames =>
    intro j within
    rcases eq_or_ne j i with rfl | other
    · rw [BufMgr.setDesc_same]
      exact ⟨numbered,fun _ => idle,fun valid => by cases idle.valid.symm.trans valid⟩
    · rw [BufMgr.setDesc_other _ _ other]
      exact inv.frames j within
  case held =>
    intro pin member
    refine (find _ _).trans ?_
    rw [if_neg fun same => ?_]
    · exact inv.held pin member
    · cases same
      exact nobody pin member (Pin.on_iff.mpr ⟨rfl,rfl⟩)
  case away =>
    intro g q low missing
    have missing := (find g q).symm.trans missing
    by_cases same : (g,q) = (file,pageNo)
    · cases same; exact safe low
    · rw [if_neg same] at missing
      exact inv.away g q low missing
  case counted => exact inv.counted

-- A frame ready for a new page: nothing would be lost if its descriptor were cleared.
structure Vacant (hash : Hash) (m : BufMgr) (disk : Disk) (last : Contents) (pins : List Pin) (i : Nat) : Prop where
  inside : i < m.numBufs
  cleared : Consistent hash (m.setDesc i (m.bufTable i).clear) disk last pins

theorem vacant_invalid (inv : Consistent hash m disk last pins) (inside : i < m.numBufs)
    (invalid : (m.bufTable i).valid = false) :
    Vacant hash m disk last pins i := by
  refine ⟨inside,?_⟩
  constructor
  case hand => exact inv.hand
  case sound => exact inv.sound
  case index =>
    refine inv.index_kept fun g q => ⟨fun held => ?_,fun held => ?_⟩
    · cases held.1
    · cases invalid.symm.trans held.1
  case frames =>
    intro j within
    obtain ⟨frameNo,idle,used⟩ := inv.frames j within
    rcases eq_or_ne j i with rfl | other
    · rw [BufMgr.setDesc_same]
      exact ⟨frameNo,fun _ => ⟨rfl,rfl,rfl,rfl⟩,fun valid => by cases valid⟩
    · rw [BufMgr.setDesc_other _ _ other]
      exact ⟨frameNo,idle,used⟩
  case held => exact inv.held
  case away => exact inv.away
  case counted => exact inv.counted

theorem install (vacant : Vacant hash m disk last pins i) (missing : m.hashTable.find hash file pageNo = none)
    (stored : (File.at? (disk file) pageNo).isSome) (page : Page) (modified : Bool)
    (fetched : modified = false → 1 ≤ pageNo ∧ File.at? (disk file) pageNo = some page) :
    ∃ table, ((m.setPage i page).setDesc i ((m.bufTable i).set file pageNo)).hashTable.insert hash file pageNo i =
      (.ok,table) ∧
      Consistent hash (((m.setPage i page).setDesc i ((m.bufTable i).set file pageNo)).setTable table) disk
        (System.update last file pageNo page) (⟨file,pageNo,i,modified⟩::pins) := by
  obtain ⟨inside,inv⟩ := vacant
  obtain ⟨table,inserted,sound,find⟩ := BufHashTbl.insert_spec hash i inv.sound missing
  have nobody : ∀ pin ∈ pins, ¬ pin.on file pageNo = true := by
    intro pin member on
    obtain ⟨rfl,rfl⟩ := Pin.on_iff.mp on
    cases missing.symm.trans (inv.held pin member)
  have nowhere : ∀ j, j < m.numBufs → j ≠ i → ¬ (m.bufTable j).Holds file pageNo := by
    intro j within other held
    have found := (inv.index file pageNo j).mpr ⟨within,by rw [BufMgr.setDesc_other _ _ other]; exact held⟩
    cases missing.symm.trans found
  have empty : ∀ g q, ¬ ((m.bufTable i).clear).Holds g q := fun g q held => by cases held.1
  have before : (m.setDesc i (m.bufTable i).clear).bufTable i = (m.bufTable i).clear := BufMgr.setDesc_same ..
  refine ⟨table,inserted,?_⟩
  have size : (((m.setPage i page).setDesc i ((m.bufTable i).set file pageNo)).setTable table).numBufs = m.numBufs :=
    rfl
  have hand : (((m.setPage i page).setDesc i ((m.bufTable i).set file pageNo)).setTable table).clockHand =
    m.clockHand := rfl
  have indexed : (((m.setPage i page).setDesc i ((m.bufTable i).set file pageNo)).setTable table).hashTable = table :=
    rfl
  have desc : (((m.setPage i page).setDesc i ((m.bufTable i).set file pageNo)).setTable table).bufTable i =
      (m.bufTable i).set file pageNo := BufMgr.setDesc_same (m.setPage i page) i _
  have descs : ∀ j, j ≠ i → (((m.setPage i page).setDesc i ((m.bufTable i).set file pageNo)).setTable table).bufTable
    j =
      m.bufTable j := fun j other => BufMgr.setDesc_other (m.setPage i page) _ other
  have frame : (((m.setPage i page).setDesc i ((m.bufTable i).set file pageNo)).setTable table).bufPool i = page :=
    BufMgr.setPage_same m i page
  have pool : ∀ j, j ≠ i → (((m.setPage i page).setDesc i ((m.bufTable i).set file pageNo)).setTable table).bufPool j =
      m.bufPool j := fun j other => BufMgr.setPage_other m page other
  generalize ((m.setPage i page).setDesc i ((m.bufTable i).set file pageNo)).setTable table = m'
    at size hand indexed desc descs frame pool ⊢
  have new : (m'.bufTable i).Holds file pageNo := by rw [desc]; exact ⟨rfl,rfl,rfl⟩
  constructor
  case hand => rw [hand,size]; exact inv.hand
  case sound => rw [indexed]; exact sound
  case index =>
    intro g q j
    rw [indexed,find,size]
    by_cases same : (g,q) = (file,pageNo)
    · rw [if_pos same]
      cases same
      constructor
      · intro equal
        cases Option.some.inj equal
        exact ⟨inside,new⟩
      · rintro ⟨within,held⟩
        rcases eq_or_ne j i with rfl | other
        · rfl
        · rw [descs j other] at held
          exact absurd held (nowhere j within other)
    · rw [if_neg same]
      refine (inv.index g q j).trans (and_congr_right fun _ => ?_)
      rcases eq_or_ne j i with rfl | other
      · rw [before]
        refine ⟨fun held => absurd held (empty g q),fun held => absurd ?_ same⟩
        rw [desc] at held
        exact Prod.ext (Option.some.inj held.2.1).symm held.2.2.symm
      · rw [BufMgr.setDesc_other _ _ other,descs j other]
  case frames =>
    intro j within
    rw [size] at within
    obtain ⟨frameNo,idle,used⟩ := inv.frames j within
    rcases eq_or_ne j i with rfl | other
    · rw [desc,frame]
      rw [before] at frameNo
      refine ⟨frameNo,fun invalid => (by cases invalid),fun _ =>
        ⟨file,rfl,?_,if_pos ⟨rfl,rfl⟩,stored,fun _ still => ?_⟩⟩
      · have zero : pinsOn pins file pageNo = 0 := List.countP_eq_zero.mpr nobody
        refine Eq.trans ?_ (congrArg Nat.cast (pinsOn_on (Pin.on_iff.mpr ⟨rfl,rfl⟩))).symm
        change (1 : Int) = (pinsOn pins file pageNo + 1 : Nat)
        rw [zero]
        rfl
      · obtain ⟨low,same⟩ := fetched (still _ (List.mem_cons_self ..) (Pin.on_iff.mpr ⟨rfl,rfl⟩))
        exact ⟨low,same.trans (if_pos ⟨rfl,rfl⟩).symm⟩
    · rw [BufMgr.setDesc_other _ _ other] at frameNo idle used
      rw [descs j other,pool j other]
      refine ⟨frameNo,idle,fun valid => ?_⟩
      obtain ⟨g,named,use⟩ := used valid
      have elsewhere : ¬ (g = file ∧ (m.bufTable j).pageNo = pageNo) := by
        rintro ⟨rfl,equal⟩
        exact nowhere j within other ⟨valid,named,equal⟩
      have unseen : ¬ (⟨file,pageNo,i,modified⟩ : Pin).on g (m.bufTable j).pageNo = true := fun on =>
        elsewhere ⟨(Pin.on_iff.mp on).1.symm,(Pin.on_iff.mp on).2.symm⟩
      refine ⟨g,named,?_,?_,use.stored,fun dirty still => ?_⟩
      · rw [pinsOn_off unseen]; exact use.pinned
      · rw [System.update,if_neg elsewhere]; exact use.contents
      · rw [System.update,if_neg elsewhere]
        exact use.clean dirty fun pin member => still pin (List.mem_cons_of_mem _ member)
  case held =>
    intro pin member
    rw [indexed,find]
    rcases List.mem_cons.mp member with rfl | old
    · exact if_pos rfl
    · rw [if_neg fun same => nobody pin old (Pin.on_iff.mpr (Prod.mk.inj same))]
      exact inv.held pin old
  case away =>
    intro g q low missing
    rw [indexed,find] at missing
    by_cases same : (g,q) = (file,pageNo)
    · rw [if_pos same] at missing; cases missing
    · rw [if_neg same] at missing
      rw [System.update,if_neg fun both => same (Prod.ext both.1 both.2)]
      exact inv.away g q low missing
  case counted => exact inv.counted

-- File::allocatePage leaves every page the clients know of as it was.
theorem grow (inv : Consistent hash m disk last pins) {unixFile : UnixFile} {result : Except Status Int}
    (allocated : File.Allocated (disk file) unixFile result) :
    Consistent hash m (Function.update disk file unixFile) (System.appear last file unixFile) pins := by
  have kept : ∀ g q, 1 ≤ q → (File.at? (disk g) q).isSome →
      File.at? (Function.update disk file unixFile g) q = File.at? (disk g) q := by
    intro g q low present
    rw [at_update]
    by_cases same : g = file
    · subst g; rw [if_pos rfl]; exact allocated.kept q low present
    · rw [if_neg same]
  have known : ∀ g q page, last g q = some page → System.appear last file unixFile g q = some page := by
    intro g q page content
    rw [System.appear,if_neg (by rw [content]; rintro ⟨_,none⟩; cases none),content]
  have header : ∀ g, (File.at? (Function.update disk file unixFile g) 0).isSome := by
    intro g
    rw [at_update]
    have present : ∀ f : UnixFile, File.Counted f → (File.at? f 0).isSome := fun f counted => by
      rw [File.header_at counted.present]; rfl
    split
    · exact present _ allocated.counted
    · exact present _ (inv.counted g)
  refine ⟨inv.hand,inv.sound,inv.index,?_,inv.held,?_,?_⟩
  · intro j within
    obtain ⟨frameNo,idle,used⟩ := inv.frames j within
    refine ⟨frameNo,idle,fun valid => ?_⟩
    obtain ⟨g,named,use⟩ := used valid
    obtain ⟨old,present⟩ := Option.isSome_iff_exists.mp use.stored
    refine ⟨g,named,use.pinned,known _ _ _ use.contents,?_,fun dirty still => ?_⟩
    · by_cases zero : (m.bufTable j).pageNo = 0
      · rw [zero]; exact header g
      · rw [kept g _ (by have := File.at_some_bound present; omega) use.stored]; exact use.stored
    · obtain ⟨low,same⟩ := use.clean dirty still
      rw [kept g _ low use.stored,known _ _ _ use.contents,same,use.contents]
      exact ⟨low,rfl⟩
  · intro g q low missing
    have before := inv.away g q low missing
    cases content : last g q with
    | some page =>
      rw [known g q page content,kept g q low (by rw [before,content]; rfl),before,content]
    | none =>
      rw [at_update,System.appear]
      by_cases same : g = file
      · rw [if_pos same,if_pos ⟨same,content⟩]
      · rw [if_neg same,if_neg fun both => same both.1,before]
  · intro g
    rcases eq_or_ne g file with rfl | other
    · rw [Function.update_self]; exact allocated.counted
    · rw [Function.update_of_ne other]; exact inv.counted g

end Consistent
end Minirel
