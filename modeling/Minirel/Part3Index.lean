import Minirel.PageGrants

namespace Minirel
open BucketTable Consistent

-- A page that the file has but its header page does not count: allocatePage has written it, and then
-- could not write the header page.
def File.Uncounted (file : UnixFile) (pageNo : Int) : Prop :=
  0 ≤ DBPage.numPages (header file) ∧ DBPage.numPages (header file) ≤ pageNo ∧ pageNo < file.length

-- The files have the same pages, and the header page is the same.
structure SamePages (disk disk' : Disk) : Prop where
  header : ∀ file, File.header (disk' file) = File.header (disk file)
  present : ∀ file pageNo, (File.at? (disk' file) pageNo).isSome ↔ (File.at? (disk file) pageNo).isSome

theorem SamePages.refl {disk : Disk} : SamePages disk disk := ⟨fun _ => rfl,fun _ _ => Iff.rfl⟩

theorem SamePages.trans {disk disk' disk'' : Disk} (one : SamePages disk disk') (two : SamePages disk' disk'') :
    SamePages disk disk'' :=
  ⟨fun file => (two.header file).trans (one.header file),fun file pageNo => (two.present file pageNo).trans
    (one.present file pageNo)⟩

theorem SamePages.noFree {disk disk' : Disk} (same : SamePages disk disk') (none_free : ∀ g, File.NoFreePages (disk g))
    (g : FileId) :
    File.NoFreePages (disk' g) := by
  rw [File.NoFreePages,same.header]
  exact none_free g

theorem Storage.writeFrame_pages {io : Faults} {s : Storage} {i : Nat} {file : FileId}
    (named : (s.mgr.bufTable i).file = some file)
    (stored : (File.at? (s.disk file) (s.mgr.bufTable i).pageNo).isSome) :
    SamePages s.disk (s.writeFrame io i).2.disk := by
  refine ⟨fun g => writeFrame_header io s i g,fun g q => ?_⟩
  obtain ⟨old,present⟩ := Option.isSome_iff_exists.mp stored
  unfold writeFrame
  rw [named]
  dsimp only
  rw [at_update]
  split
  · rename_i same
    subst same
    cases written : File.writePage (io g) (s.disk g) (s.mgr.bufTable i).pageNo (s.mgr.bufPool i) with
    | mk status unixFile =>
      by_cases failed : status ≠ .ok
      · rw [File.writePage_failed written failed]
      · cases not_not.mp failed
        rw [File.at_writePage present written]
        split
        · rename_i here
          rw [here]
          exact ⟨fun _ => stored,fun _ => rfl⟩
        · exact Iff.rfl
  · exact Iff.rfl

namespace Part3

abbrev Books := FileId → Int → Int

def Books.put (books : Books) (file : FileId) (pageNo : Int) (n : Int) : Books :=
  fun g q => if g = file ∧ q = pageNo then n else books g q

-- What is known of the pins of a page since it was loaded from what the calls returned. A page that the
-- table does not have when readPage is called is loaded by that call.
def booked (io : Faults) (s : Storage) (books : Books) : Call → Books
  | .readPage file pageNo =>
    match (readPage io s file pageNo).1,s.mgr.hashTable.lookup hash file pageNo with
    | .ok _,.ok _ => books.put file pageNo (books file pageNo + 1)
    | .ok _,.error _ => books.put file pageNo 1
    | .error _,_ => books
  | .allocPage file =>
    match (allocPage io s file).1 with
    | .ok made => books.put file made.1 1
    | .error _ => books
  | .unPinPage file pageNo dirty =>
    if (unPinPage s file pageNo dirty).1 = .ok then books.put file pageNo (books file pageNo - 1) else books
  | .flushFile _ => books
  | .modify _ _ => books

structure Ledger where
  storage : Storage
  books : Books
  statuses : List Status

namespace Ledger

def start (bufs : Nat) (disk : Disk) : Ledger := ⟨.start bufs disk,fun _ _ => 0,[]⟩

def step (l : Ledger) (io : Faults) (c : Call) : Ledger where
  storage := (l.storage.call release io c).2
  books := booked io l.storage l.books c
  statuses := (l.storage.call release io c).1::l.statuses

def run (l : Ledger) (calls : List (Faults × Call)) : Ledger := calls.foldl (fun l call => l.step call.1 call.2) l

-- Nobody reads a page that the file's header page does not count.
def Counted (l : Ledger) : Call → Prop
  | .readPage file pageNo => ¬ File.Uncounted (l.storage.disk file) pageNo
  | _ => True

def CountedRun : Ledger → List (Faults × Call) → Prop
  | _,[] => True
  | l,call::rest => l.Counted call.2 ∧ CountedRun (l.step call.1 call.2) rest

end Ledger

-- The table and the frames say the same, and the pins are those of the books. HASHTBLERROR is what a call
-- returns whose insert was refused.
structure Indexed (l : Ledger) : Prop where
  index : ∀ file pageNo i, l.storage.mgr.hashTable.find hash file pageNo = some i ↔
    i < l.storage.mgr.numBufs ∧ (l.storage.mgr.bufTable i).Holds file pageNo
  unique : ∀ i j file pageNo, i < l.storage.mgr.numBufs → j < l.storage.mgr.numBufs →
    (l.storage.mgr.bufTable i).Holds file pageNo → (l.storage.mgr.bufTable j).Holds file pageNo → i = j
  idle : ∀ i, i < l.storage.mgr.numBufs → (l.storage.mgr.bufTable i).valid = false →
    (l.storage.mgr.bufTable i).pinCnt = 0 ∧ (l.storage.mgr.bufTable i).dirty = false
  pins : ∀ i file pageNo, i < l.storage.mgr.numBufs → (l.storage.mgr.bufTable i).Holds file pageNo →
    (l.storage.mgr.bufTable i).pinCnt = l.books file pageNo
  inserted : .hashTblError ∉ l.statuses

structure Tally (m : BufMgr) (disk : Disk) (books : Books) : Prop extends Listed hash m where
  all : ∀ i file pageNo, i < m.numBufs → (m.bufTable i).Holds file pageNo → m.hashTable.find hash file pageNo = some i
  named : ∀ i, i < m.numBufs → (m.bufTable i).valid = true → ∃ file, (m.bufTable i).file = some file
  clean : ∀ i, i < m.numBufs → (m.bufTable i).valid = false → (m.bufTable i).dirty = false
  pinned : ∀ i file pageNo, i < m.numBufs → (m.bufTable i).Holds file pageNo → (m.bufTable i).pinCnt = books file pageNo
  counted : ∀ i file pageNo, i < m.numBufs → (m.bufTable i).Holds file pageNo →
    0 ≤ DBPage.numPages (File.header (disk file)) → pageNo < DBPage.numPages (File.header (disk file))
  stored : ∀ i file pageNo, i < m.numBufs → (m.bufTable i).Holds file pageNo → (File.at? (disk file) pageNo).isSome

namespace Tally
variable {m m' : BufMgr} {disk disk' : Disk} {books : Books} {i : Nat} {file : FileId} {pageNo : Int}

theorem init {bufs : Nat} (some_frame : 1 ≤ bufs) (disk : Disk) : Tally (.init bufs) disk fun _ _ => 0 :=
  ⟨.init some_frame,fun _ _ _ _ held => (by cases held.1),fun _ _ valid => (by cases valid),fun _ _ _ => rfl,
    fun _ _ _ _ held => (by cases held.1),fun _ _ _ _ held => (by cases held.1),fun _ _ _ _ held => (by cases held.1)⟩

theorem tick (tally : Tally m disk books) (ticked : Ticked m m') : Tally m' disk books := by
  have size := ticked.numBufs
  have held : ∀ {i file pageNo}, (m'.bufTable i).Holds file pageNo → (m.bufTable i).Holds file pageNo := by
    intro i file pageNo held
    obtain ⟨b,same⟩ := ticked.descs i
    rw [same] at held
    exact held
  refine ⟨tally.toListed.tick ticked,?_,?_,?_,?_,?_,?_⟩
  · intro i file pageNo inside holds
    rw [ticked.hashTable]
    exact tally.all i file pageNo (lt_of_lt_of_eq inside size) (held holds)
  · intro i inside valid
    obtain ⟨b,same⟩ := ticked.descs i
    rw [same] at valid ⊢
    exact tally.named i (lt_of_lt_of_eq inside size) valid
  · intro i inside invalid
    obtain ⟨b,same⟩ := ticked.descs i
    rw [same] at invalid ⊢
    exact tally.clean i (lt_of_lt_of_eq inside size) invalid
  · intro i file pageNo inside holds
    rw [(Kept.tick ticked i).pinCnt]
    exact tally.pinned i file pageNo (lt_of_lt_of_eq inside size) (held holds)
  · exact fun i file pageNo inside holds => tally.counted i file pageNo (lt_of_lt_of_eq inside size) (held holds)
  · exact fun i file pageNo inside holds => tally.stored i file pageNo (lt_of_lt_of_eq inside size) (held holds)

theorem setPage (tally : Tally m disk books) (page : Page) : Tally (m.setPage i page) disk books :=
  ⟨tally.toListed.setPage page,tally.all,tally.named,tally.clean,tally.pinned,tally.counted,tally.stored⟩

-- The disk may gain pages, and counted ones at the end only.
theorem redisk (tally : Tally m disk books)
    (counts : ∀ file, 0 ≤ DBPage.numPages (File.header (disk' file)) → 0 ≤ DBPage.numPages (File.header (disk file)) ∧
      DBPage.numPages (File.header (disk file)) ≤ DBPage.numPages (File.header (disk' file)))
    (present : ∀ file pageNo, (File.at? (disk file) pageNo).isSome → (File.at? (disk' file) pageNo).isSome) :
    Tally m disk' books := by
  refine ⟨tally.toListed,tally.all,tally.named,tally.clean,tally.pinned,?_,?_⟩
  · intro i file pageNo inside holds positive
    obtain ⟨before,grows⟩ := counts file positive
    have := tally.counted i file pageNo inside holds before
    omega
  · exact fun i file pageNo inside holds => present file pageNo (tally.stored i file pageNo inside holds)

theorem same_pages (tally : Tally m disk books) (same : SamePages disk disk') : Tally m disk' books := by
  refine tally.redisk (fun file positive => ?_) fun file pageNo => (same.present file pageNo).mpr
  rw [same.header] at positive ⊢
  exact ⟨positive,Int.le_refl _⟩

-- A frame nobody has pinned gives up its page.
theorem vacate (tally : Tally m disk books) (inside : i < m.numBufs) (holds : (m.bufTable i).Holds file pageNo)
    {d : BufDesc}
    (idle : d.Idle) (numbered : d.frameNo = i) :
    Tally ((m.setTable (m.hashTable.remove hash file pageNo).2).setDesc i d) disk books := by
  have find := (BufHashTbl.remove_spec hash file pageNo tally.sound).2
  have here : ((m.setTable (m.hashTable.remove hash file pageNo).2).setDesc i d).bufTable i = d :=
    BufMgr.setDesc_same ..
  have others : ∀ j, j ≠ i → ((m.setTable (m.hashTable.remove hash file pageNo).2).setDesc i d).bufTable j =
      m.bufTable j :=
    fun j other => BufMgr.setDesc_other _ _ other
  have elsewhere : ∀ {j g q}, (((m.setTable (m.hashTable.remove hash file pageNo).2).setDesc i d).bufTable j).Holds
    g q →
      j ≠ i ∧ (m.bufTable j).Holds g q := by
    intro j g q held
    rcases eq_or_ne j i with rfl | other
    · rw [here] at held
      cases idle.valid.symm.trans held.1
    · rw [others j other] at held
      exact ⟨other,held⟩
  refine ⟨(tally.toListed.remove file pageNo).setDesc (.inr (tally.toListed.remove_unlisted holds))
    (numbered.trans (tally.numbered i inside).symm) (Int.le_of_eq idle.pinCnt.symm) fun _ =>
    idle.pinCnt,?_,?_,?_,?_,?_,?_⟩
  · intro j g q within held
    obtain ⟨other,held⟩ := elsewhere held
    refine (find g q).trans ?_
    rw [if_neg,tally.all j g q within held]
    intro same
    cases same
    exact other (Option.some.inj ((tally.all j _ _ within held).symm.trans (tally.all i _ _ inside holds)))
  · intro j within valid
    rcases eq_or_ne j i with rfl | other
    · rw [here] at valid
      cases idle.valid.symm.trans valid
    · rw [others j other] at valid ⊢
      exact tally.named j within valid
  · intro j within invalid
    rcases eq_or_ne j i with rfl | other
    · rw [here]; exact idle.dirty
    · rw [others j other] at invalid ⊢
      exact tally.clean j within invalid
  · intro j g q within held
    obtain ⟨other,held⟩ := elsewhere held
    rw [others j other]
    exact tally.pinned j g q within held
  · exact fun j g q within held => tally.counted j g q within (elsewhere held).2
  · exact fun j g q within held => tally.stored j g q within (elsewhere held).2

-- A page comes into a frame that is out of use: no other frame has it, so the table takes the entry.
theorem install (tally : Tally m disk books) (inside : i < m.numBufs) (invalid : (m.bufTable i).valid = false)
    (missing : m.hashTable.find hash file pageNo = none)
    (counted : 0 ≤ DBPage.numPages (File.header (disk file)) → pageNo < DBPage.numPages (File.header (disk file)))
    (stored : (File.at? (disk file) pageNo).isSome) :
    ∃ table, (m.setDesc i ((m.bufTable i).set file pageNo)).hashTable.insert hash file pageNo i = (.ok,table) ∧
      Tally ((m.setDesc i ((m.bufTable i).set file pageNo)).setTable table) disk (books.put file pageNo 1) := by
  obtain ⟨table,inserted,sound,find⟩ := BufHashTbl.insert_spec hash i tally.sound missing
  have listed := tally.toListed.enter inside (tally.toListed.invalid_unlisted invalid) file pageNo
  have entered : (m.setDesc i ((m.bufTable i).set file pageNo)).hashTable.insert hash file pageNo i = (.ok,table) :=
    inserted
  rw [entered] at listed
  refine ⟨table,inserted,?_⟩
  have here : ((m.setDesc i ((m.bufTable i).set file pageNo)).setTable table).bufTable i =
      (m.bufTable i).set file pageNo :=
    BufMgr.setDesc_same ..
  have others : ∀ j, j ≠ i → ((m.setDesc i ((m.bufTable i).set file pageNo)).setTable table).bufTable j =
      m.bufTable j :=
    fun j other => BufMgr.setDesc_other _ _ other
  -- A frame holds a page now: it is this one, or one that held it before.
  have known : ∀ {j g q}, (((m.setDesc i ((m.bufTable i).set file pageNo)).setTable table).bufTable j).Holds g q →
      (j = i ∧ g = file ∧ q = pageNo) ∨ (j ≠ i ∧ (m.bufTable j).Holds g q) := by
    intro j g q held
    rcases eq_or_ne j i with rfl | other
    · rw [here] at held
      exact .inl ⟨rfl,(Option.some.inj held.2.1).symm,held.2.2.symm⟩
    · rw [others j other] at held
      exact .inr ⟨other,held⟩
  have fresh : ∀ {j g q}, j < m.numBufs → (m.bufTable j).Holds g q → ¬ (g = file ∧ q = pageNo) := by
    rintro j g q within held ⟨rfl,rfl⟩
    cases missing.symm.trans (tally.all j _ _ within held)
  refine ⟨listed,?_,?_,?_,?_,?_,?_⟩
  · intro j g q within held
    refine (find g q).trans ?_
    rcases known held with ⟨rfl,rfl,rfl⟩ | ⟨_,old⟩
    · rw [if_pos rfl]
    · rw [if_neg fun same => fresh within old (Prod.ext_iff.mp same)]
      exact tally.all j g q within old
  · intro j within valid
    rcases eq_or_ne j i with rfl | other
    · rw [here]; exact ⟨file,rfl⟩
    · rw [others j other] at valid ⊢
      exact tally.named j within valid
  · intro j within unused
    rcases eq_or_ne j i with rfl | other
    · rw [here] at unused
      cases unused
    · rw [others j other] at unused ⊢
      exact tally.clean j within unused
  · intro j g q within held
    rcases known held with ⟨rfl,rfl,rfl⟩ | ⟨other,old⟩
    · rw [here,Books.put,if_pos ⟨rfl,rfl⟩]
      rfl
    · rw [others j other,Books.put,if_neg (fresh within old)]
      exact tally.pinned j g q within old
  · intro j g q within held
    rcases known held with ⟨_,rfl,rfl⟩ | ⟨_,old⟩
    · exact counted
    · exact tally.counted j g q within old
  · intro j g q within held
    rcases known held with ⟨_,rfl,rfl⟩ | ⟨_,old⟩
    · exact stored
    · exact tally.stored j g q within old

-- The page stays in its frame; its pins are booked.
theorem repin (tally : Tally m disk books) (present : m.hashTable.find hash file pageNo = some i) {d : BufDesc}
    (named : d.file = (m.bufTable i).file) (page : d.pageNo = (m.bufTable i).pageNo)
    (valid : d.valid = (m.bufTable i).valid)
    (numbered : d.frameNo = (m.bufTable i).frameNo) (pins : 0 ≤ d.pinCnt) :
    Tally (m.setDesc i d) disk (books.put file pageNo d.pinCnt) := by
  obtain ⟨inside,holds⟩ := tally.listed file pageNo i present
  have here : (m.setDesc i d).bufTable i = d := BufMgr.setDesc_same ..
  have others : ∀ j, j ≠ i → (m.setDesc i d).bufTable j = m.bufTable j := fun j other => BufMgr.setDesc_other _ _ other
  have held : ∀ {j g q}, ((m.setDesc i d).bufTable j).Holds g q → (m.bufTable j).Holds g q := by
    intro j g q held
    rcases eq_or_ne j i with rfl | other
    · rw [here] at held
      exact ⟨valid.symm.trans held.1,named.symm.trans held.2.1,page.symm.trans held.2.2⟩
    · rw [others j other] at held
      exact held
  refine ⟨tally.toListed.repin present named page valid numbered pins,?_,?_,?_,?_,?_,?_⟩
  · exact fun j g q within now => tally.all j g q within (held now)
  · intro j within used
    rcases eq_or_ne j i with rfl | other
    · rw [here,named]; exact ⟨file,holds.2.1⟩
    · rw [others j other] at used ⊢
      exact tally.named j within used
  · intro j within unused
    rcases eq_or_ne j i with rfl | other
    · rw [here,valid] at unused
      cases holds.1.symm.trans unused
    · rw [others j other] at unused ⊢
      exact tally.clean j within unused
  · intro j g q within now
    have before := held now
    rcases eq_or_ne j i with rfl | other
    · have file_eq : g = file := Option.some.inj (before.2.1.symm.trans holds.2.1)
      have page_eq : q = pageNo := before.2.2.symm.trans holds.2.2
      rw [here,Books.put,if_pos ⟨file_eq,page_eq⟩]
    · rw [others j other,Books.put,if_neg]
      · exact tally.pinned j g q within before
      · rintro ⟨rfl,rfl⟩
        exact other (Option.some.inj ((tally.all j _ _ within before).symm.trans present))
  · exact fun j g q within now => tally.counted j g q within (held now)
  · exact fun j g q within now => tally.stored j g q within (held now)

theorem countRead (tally : Tally m disk books) : Tally m.countRead disk books :=
  tally.tick ⟨rfl,rfl,rfl,tally.hand,fun i => ⟨(m.bufTable i).refbit,rfl⟩⟩

theorem countWrite (tally : Tally m disk books) : Tally m.countWrite disk books :=
  tally.tick ⟨rfl,rfl,rfl,tally.hand,fun i => ⟨(m.bufTable i).refbit,rfl⟩⟩

end Tally

-- What allocBuf comes to: nothing but a status, or a frame out of use.
inductive Found (s : Storage) (books : Books) : Except Status Nat × Storage → Prop
  | failed (status : Status) (s' : Storage) (tally : Tally s'.mgr s'.disk books) (pages : SamePages s.disk s'.disk)
      (known : status ≠ .hashTblError) : Found s books (.error status,s')
  | took (i : Nat) (s' : Storage) (tally : Tally s'.mgr s'.disk books) (pages : SamePages s.disk s'.disk)
      (inside : i < s'.mgr.numBufs) (invalid : (s'.mgr.bufTable i).valid = false)
      (less : ∀ file pageNo, s.mgr.hashTable.find hash file pageNo = none → s'.mgr.hashTable.find hash file pageNo =
        none) :
      Found s books (.ok i,s')

theorem Found.earlier {s t : Storage} {books : Books} {result : Except Status Nat × Storage}
    (after : Found t books result)
    (table : t.mgr.hashTable = s.mgr.hashTable) (disk : t.disk = s.disk) : Found s books result := by
  cases after with
  | failed status s' tally pages known => exact .failed status s' tally (disk ▸ pages) known
  | took i s' tally pages inside invalid less => exact .took i s' tally (disk ▸ pages) inside invalid (table ▸ less)

-- The victim's page is on the disk, or has just been written there.
theorem Found.evicted {s : Storage} {books : Books} {i : Nat} {file : FileId} {pageNo : Int} {m : BufMgr} {disk : Disk}
    (tally : Tally m disk books) (inside : i < m.numBufs) (holds : (m.bufTable i).Holds file pageNo)
    (table : m.hashTable = s.mgr.hashTable) (pages : SamePages s.disk disk) :
    Found s books (.ok i,⟨(m.dropEntry hash i).setDesc i (m.bufTable i).clear,disk⟩) := by
  have dropped : m.dropEntry hash i = m.setTable (m.hashTable.remove hash file pageNo).2 := by
    rw [BufMgr.dropEntry,holds.2.1,holds.2.2]
  have vacated := tally.vacate inside holds (d:=(m.bufTable i).clear) ⟨rfl,rfl,rfl,rfl⟩ (tally.numbered i inside)
  rw [dropped]
  refine .took i _ vacated pages inside (by rw [BufMgr.setDesc_same]; rfl) fun g q missing => ?_
  refine ((BufHashTbl.remove_spec hash file pageNo tally.sound).2 g q).trans ?_
  rw [table,missing]
  split <;> rfl

theorem allocTurns_found (io : Faults) (turns : Nat) {s : Storage} {books : Books} (tally : Tally s.mgr s.disk books) :
    Found s books (allocTurns io turns s) := by
  induction turns generalizing s with
  | zero => exact .failed _ s tally .refl (by decide)
  | succ turns ih =>
    have inside := tally.hand
    unfold allocTurns
    dsimp only
    by_cases invalid : ¬ (s.mgr.bufTable s.mgr.clockHand).valid = true
    · rw [if_pos invalid]
      exact .took _ s tally .refl inside (Bool.eq_false_iff.mpr invalid) fun _ _ => id
    · rw [if_neg invalid]
      have valid := not_not.mp invalid
      by_cases referenced : (s.mgr.bufTable s.mgr.clockHand).refbit = true
      · rw [if_pos referenced]
        have lowered := tally.tick (unreferenced inside s.mgr.clockHand)
        exact (ih (s:=⟨_,s.disk⟩) lowered).earlier rfl rfl
      · rw [if_neg referenced]
        by_cases pinned : (s.mgr.bufTable s.mgr.clockHand).pinCnt > 0
        · rw [if_pos pinned]
          have passed := tally.tick (passed_over inside)
          exact (ih (s:=⟨_,s.disk⟩) passed).earlier rfl rfl
        · rw [if_neg pinned]
          obtain ⟨file,named⟩ := tally.named _ inside valid
          have holds : (s.mgr.bufTable s.mgr.clockHand).Holds file (s.mgr.bufTable s.mgr.clockHand).pageNo :=
            ⟨valid,named,rfl⟩
          by_cases dirty : (s.mgr.bufTable s.mgr.clockHand).dirty = true
          · rw [if_pos dirty]
            have same := Storage.writeFrame_mgr io s s.mgr.clockHand
            have pages : SamePages s.disk (s.writeFrame io s.mgr.clockHand).2.disk :=
              Storage.writeFrame_pages named (tally.stored _ _ _ inside holds)
            have known := s.writeFrame_status io s.mgr.clockHand
            cases written : s.writeFrame io s.mgr.clockHand with
            | mk status s' =>
              rw [written] at same pages known
              dsimp only at same pages known ⊢
              rw [same]
              have after := (tally.same_pages pages).countWrite
              by_cases failed : status ≠ .ok
              · rw [if_pos failed]
                refine .failed status _ after pages ?_
                rintro rfl
                exact absurd known (by decide)
              · rw [if_neg failed]
                exact Found.evicted after inside holds rfl pages
          · rw [if_neg dirty]
            exact Found.evicted tally inside holds rfl .refl

theorem allocBuf_found (io : Faults) {s : Storage} {books : Books} (tally : Tally s.mgr s.disk books) :
    Found s books (allocBuf io s) := allocTurns_found io _ tally

theorem readPage_known {io : Io} {file : UnixFile} {pageNo : Int} {status : Status}
    (failed : File.readPage io file pageNo = .error status) : status ≠ .hashTblError := by
  rintro rfl
  unfold File.readPage File.intread at failed
  split at failed
  · cases failed
  · split at failed
    · cases failed
    · split at failed
      · cases failed
      · cases failed

theorem readPage_there {io : Io} {file : UnixFile} {pageNo : Int} {page : Page}
    (read : File.readPage io file pageNo = .ok page) :
    File.at? file pageNo = some page := by
  unfold File.readPage File.intread at read
  split at read
  · cases read
  · split at read
    · cases read
    · split at read
      · rename_i found
        cases read
        exact found
      · cases read

-- A page found in the pool, a page loaded, or neither.
inductive Read (s : Storage) (books : Books) (file : FileId) (pageNo : Int) : Except Status Nat × Storage → Prop
  | hit (i : Nat) (s' : Storage) (present : s.mgr.hashTable.find hash file pageNo = some i)
      (tally : Tally s'.mgr s'.disk (books.put file pageNo (books file pageNo + 1)))
      (pages : SamePages s.disk s'.disk) :
      Read s books file pageNo (.ok i,s')
  | loaded (i : Nat) (s' : Storage) (missing : s.mgr.hashTable.find hash file pageNo = none)
      (tally : Tally s'.mgr s'.disk (books.put file pageNo 1)) (pages : SamePages s.disk s'.disk) :
      Read s books file pageNo (.ok i,s')
  | failed (status : Status) (s' : Storage) (tally : Tally s'.mgr s'.disk books) (pages : SamePages s.disk s'.disk)
      (known : status ≠ .hashTblError) : Read s books file pageNo (.error status,s')

theorem readPage_read (io : Faults) {s : Storage} {books : Books} (tally : Tally s.mgr s.disk books)
    (file : FileId) (pageNo : Int)
    (counted : ¬ File.Uncounted (s.disk file) pageNo) : Read s books file pageNo (readPage io s file pageNo) := by
  unfold readPage
  cases present : s.mgr.hashTable.find hash file pageNo with
  | some frame =>
    obtain ⟨inside,holds⟩ := tally.listed file pageNo frame present
    have low := tally.pins frame inside
    rw [BufHashTbl.lookup_ok present]
    dsimp only
    rw [findDesc_spec tally.numbered inside]
    refine .hit frame _ present ?_ .refl
    rw [← tally.pinned frame file pageNo inside holds]
    refine tally.repin present rfl rfl rfl rfl ?_
    dsimp only
    omega
  | none =>
    rw [BufHashTbl.lookup_error present]
    dsimp only
    have found := allocBuf_found io tally
    cases result : allocBuf io s with
    | mk outcome s' =>
      rw [result] at found
      cases found with
      | failed status _ after pages known => exact .failed status s' after pages known
      | took frame _ after pages inside invalid less =>
        dsimp only
        cases read : File.readPage (io file) (s'.disk file) pageNo with
        | error status => exact .failed status _ after.countRead pages (readPage_known read)
        | ok page =>
          have there := readPage_there read
          have before : (File.at? (s.disk file) pageNo).isSome := (pages.present file pageNo).mp (by rw [there]; rfl)
          -- The page was there before the victim was written back, so it is one that is counted.
          have below : 0 ≤ DBPage.numPages (File.header (s'.disk file)) →
              pageNo < DBPage.numPages (File.header (s'.disk file)) := by
            rw [pages.header]
            intro positive
            by_contra past
            obtain ⟨old,found⟩ := Option.isSome_iff_exists.mp before
            exact counted ⟨positive,by omega,(File.at_some_bound found).2⟩
          have filled := (after.countRead).setPage (i:=frame) page
          obtain ⟨table,inserted,installed⟩ := filled.install inside invalid (less _ _ present) below
            (by rw [there]; rfl)
          have target : findDesc (s'.mgr.countRead.setPage frame page) frame = some frame :=
            findDesc_spec filled.numbered inside
          dsimp only
          rw [target]
          dsimp only
          rw [inserted,if_neg (not_not.mpr rfl)]
          exact .loaded frame _ present installed pages

-- A file may have grown by one page that is not in the pool.
inductive Granted (s : Storage) (books : Books) (file : FileId) : Except Status (Int × Nat) × Storage → Prop
  | made (pageNo : Int) (i : Nat) (s' : Storage) (tally : Tally s'.mgr s'.disk (books.put file pageNo 1))
      (noFree : ∀ file, File.NoFreePages (s'.disk file)) : Granted s books file (.ok (pageNo,i),s')
  | failed (status : Status) (s' : Storage) (tally : Tally s'.mgr s'.disk books)
      (noFree : ∀ file, File.NoFreePages (s'.disk file)) (known : status ≠ .hashTblError) :
      Granted s books file (.error status,s')

end Part3

namespace File

-- What allocatePage does to a file with no free pages.
inductive Extended (file : UnixFile) : Except Status Int × UnixFile → Prop
  | failed (status : Status) (file' : UnixFile) (kept : header file' = header file)
      (present : ∀ q, (at? file q).isSome → (at? file' q).isSome) (known : status ≠ .hashTblError) :
      Extended file (.error status,file')
  | made (file' : UnixFile) (positive : 0 ≤ DBPage.numPages (header file)) (grown : Grown file file')
      (present : ∀ q, (at? file q).isSome → (at? file' q).isSome)
      (new : (at? file' (DBPage.numPages (header file))).isSome) :
      Extended file (.ok (DBPage.numPages (header file)),file')

theorem at_isSome {file : UnixFile} {q : Int} : (at? file q).isSome ↔ 0 ≤ q ∧ q < file.length := by
  constructor
  · intro found
    obtain ⟨page,here⟩ := Option.isSome_iff_exists.mp found
    exact at_some_bound here
  · rintro ⟨low,high⟩
    obtain ⟨page,here⟩ := at_inside low high
    rw [here]; rfl

theorem overwrite_longer (file : UnixFile) (n : Nat) (page : Page) :
    file.length ≤ (overwrite file n page).length ∧ n < (overwrite file n page).length := by
  unfold overwrite
  split
  · rw [List.length_set]
    exact ⟨Nat.le_refl _,by omega⟩
  · rw [List.length_append,List.length_append,List.length_replicate,List.length_singleton]
    omega

theorem intwrite_present {io : Io} {file file' : UnixFile} {pageNo : Int} {page : Page} {status : Status}
    (written : intwrite io file pageNo page = (status,file')) :
    (∀ q, (at? file q).isSome → (at? file' q).isSome) ∧ (status = .ok ∨ status = .unixErr) ∧
      (status = .ok → (at? file' pageNo).isSome ∧ 0 ≤ pageNo) := by
  unfold intwrite at written
  split at written
  · cases written
    exact ⟨fun _ => id,.inr rfl,fun none => by cases none⟩
  · rename_i goes
    cases written
    have longer := overwrite_longer file pageNo.toNat page
    have low : 0 ≤ pageNo := by
      by_contra negative
      exact goes (.inr (by omega))
    refine ⟨fun q there => ?_,.inl rfl,fun _ => ⟨?_,low⟩⟩
    · rw [at_isSome] at there ⊢
      omega
    · rw [at_isSome]
      omega

theorem extend_present (io : Io) (file : UnixFile) (header : Page) :
    (∀ q, (at? file q).isSome → (at? (extend io file header).2 q).isSome) ∧
      (∀ status, (extend io file header).1 = .error status → status ≠ .hashTblError) ∧
      ∀ pageNo, (extend io file header).1 = .ok pageNo → 0 ≤ pageNo ∧
        (at? (extend io file header).2 pageNo).isSome := by
  unfold extend
  dsimp only
  cases first : intwrite io file (DBPage.numPages header) (ByteMemory.zero 1024) with
  | mk status file₁ =>
    obtain ⟨keeps,known,there⟩ := intwrite_present first
    rcases known with rfl | rfl
    · dsimp only
      obtain ⟨present,positive⟩ := there rfl
      generalize (if DBPage.firstPage (DBPage.setNumPages header (DBPage.numPages header + 1)) = -1 then _ else _ :
        Page) = header'
      cases second : intwrite io file₁ 0 header' with
      | mk status file₂ =>
        obtain ⟨keeps',known',_⟩ := intwrite_present second
        rcases known' with rfl | rfl
        · refine ⟨fun q here => keeps' q (keeps q here),fun _ none => (by cases none),fun pageNo same => ?_⟩
          cases same
          exact ⟨positive,keeps' _ present⟩
        · exact ⟨fun q here => keeps' q (keeps q here),fun _ same => (by cases same; decide),
            fun _ none => by cases none⟩
    · exact ⟨keeps,fun _ same => (by cases same; decide),fun _ none => by cases none⟩

theorem allocatePage_extended (io : Io) {file : UnixFile} (none_free : NoFreePages file) :
    Extended file (allocatePage io file) := by
  unfold allocatePage
  by_cases gone : file = []
  · subst gone
    unfold intread
    split
    · rename_i read
      split at read
      · cases read
        exact .failed _ _ rfl (fun _ => id) (by decide)
      · cases read
        exact .failed _ _ rfl (fun _ => id) (by decide)
    · rename_i read
      split at read
      · cases read
      · cases read
  · rw [intread_header (List.length_pos_iff.mpr gone)]
    by_cases unread : io.read 0 = true
    · rw [if_pos unread]
      exact .failed _ _ rfl (fun _ => id) (by decide)
    · rw [if_neg unread]
      dsimp only
      rw [if_neg (not_not.mpr (show DBPage.nextFree (header file) = -1 from none_free))]
      obtain ⟨keeps,known,there⟩ := extend_present io file (header file)
      rcases extend_outcome io file with ⟨_,⟨status,failed⟩,kept⟩ | ⟨_,number,grown⟩
      · have result : extend io file (header file) = (.error status,(extend io file (header file)).2) :=
          Prod.ext failed rfl
        rw [result]
        exact .failed status _ kept keeps (known status failed)
      · obtain ⟨positive,new⟩ := there _ number
        have result : extend io file (header file) =
          (.ok (DBPage.numPages (header file)),(extend io file (header file)).2) := Prod.ext number rfl
        rw [result]
        exact .made _ positive grown keeps new

end File

namespace Part3

theorem grown_counts {file file' : UnixFile} (grown : File.Grown file file')
    (positive : 0 ≤ DBPage.numPages (File.header file))
    (after : 0 ≤ DBPage.numPages (File.header file')) :
    DBPage.numPages (File.header file') = DBPage.numPages (File.header file) + 1 := by
  have count := grown.numPages
  have bound := ByteMemory.word_bmod (File.header file) 4 8
  change Int.bmod (DBPage.numPages (File.header file)) (256 ^ 4) = DBPage.numPages (File.header file) at bound
  rw [Int.bmod_def] at count bound
  split at count <;> split at bound <;> omega

theorem Tally.update_file {m : BufMgr} {disk : Disk} {books : Books} {file : FileId} {unixFile : UnixFile}
    (tally : Tally m disk books)
    (counts : 0 ≤ DBPage.numPages (File.header unixFile) → 0 ≤ DBPage.numPages (File.header (disk file)) ∧
      DBPage.numPages (File.header (disk file)) ≤ DBPage.numPages (File.header unixFile))
    (present : ∀ q, (File.at? (disk file) q).isSome → (File.at? unixFile q).isSome) :
    Tally m (Function.update disk file unixFile) books := by
  refine tally.redisk (fun g positive => ?_) fun g q there => ?_
  · rcases eq_or_ne g file with rfl | other
    · rw [Function.update_self] at positive ⊢
      exact counts positive
    · rw [Function.update_of_ne other] at positive ⊢
      exact ⟨positive,Int.le_refl _⟩
  · rcases eq_or_ne g file with rfl | other
    · rw [Function.update_self]; exact present q there
    · rw [Function.update_of_ne other]; exact there

theorem noFree_update {disk : Disk} {file : FileId} {unixFile : UnixFile} (none_free : ∀ g, File.NoFreePages (disk g))
    (none : File.NoFreePages unixFile) (g : FileId) : File.NoFreePages (Function.update disk file unixFile g) := by
  rcases eq_or_ne g file with rfl | other
  · rw [Function.update_self]; exact none
  · rw [Function.update_of_ne other]; exact none_free g

theorem allocPage_granted (io : Faults) {s : Storage} {books : Books} (tally : Tally s.mgr s.disk books) (file : FileId)
    (none_free : ∀ file, File.NoFreePages (s.disk file)) : Granted s books file (allocPage io s file) := by
  have extended := File.allocatePage_extended (io file) (none_free file)
  unfold allocPage
  cases allocated : File.allocatePage (io file) (s.disk file) with
  | mk number unixFile =>
    rw [allocated] at extended
    cases extended with
    | failed status _ kept present known =>
      refine .failed status _ (tally.update_file (fun positive => ?_) present) (noFree_update none_free ?_) known
      · rw [kept] at positive ⊢
        exact ⟨positive,Int.le_refl _⟩
      · rw [File.NoFreePages,kept]; exact none_free file
    | made _ positive grown present new =>
      dsimp only
      have counts := grown_counts grown positive
      have tally₁ : Tally s.mgr (Function.update s.disk file unixFile) books :=
        tally.update_file (fun after => ⟨positive,by rw [counts after]; omega⟩) present
      have none_free₁ : ∀ g, File.NoFreePages (Function.update s.disk file unixFile g) :=
        noFree_update none_free (by rw [File.NoFreePages,grown.nextFree]; exact none_free file)
      have missing : s.mgr.hashTable.find hash file (DBPage.numPages (File.header (s.disk file))) = none := by
        cases found : s.mgr.hashTable.find hash file (DBPage.numPages (File.header (s.disk file))) with
        | none => rfl
        | some i =>
          obtain ⟨inside,holds⟩ := tally.listed _ _ i found
          have := tally.counted i file _ inside holds positive
          omega
      have found := allocBuf_found io (s:=⟨s.mgr,Function.update s.disk file unixFile⟩) tally₁
      cases result : allocBuf io ⟨s.mgr,Function.update s.disk file unixFile⟩ with
      | mk outcome s' =>
        rw [result] at found
        cases found with
        | failed status _ after pages known => exact .failed status s' after (pages.noFree none_free₁) known
        | took frame _ after pages inside invalid less =>
          dsimp only
          have below : 0 ≤ DBPage.numPages (File.header (s'.disk file)) →
              DBPage.numPages (File.header (s.disk file)) < DBPage.numPages (File.header (s'.disk file)) := by
            rw [pages.header]
            dsimp only
            rw [Function.update_self]
            intro after
            rw [counts after]
            omega
          have stored : (File.at? (s'.disk file) (DBPage.numPages (File.header (s.disk file)))).isSome :=
            (pages.present _ _).mpr (by dsimp only; rw [Function.update_self]; exact new)
          obtain ⟨table,inserted,installed⟩ := after.install inside invalid (less _ _ missing) below stored
          rw [inserted,if_neg (not_not.mpr rfl)]
          exact .made _ frame _ installed (pages.noFree none_free₁)

inductive UnPinned (s : Storage) (books : Books) (file : FileId) (pageNo : Int) : Status × Storage → Prop
  | done (s' : Storage) (tally : Tally s'.mgr s'.disk (books.put file pageNo (books file pageNo - 1)))
      (same : s'.disk = s.disk) :
      UnPinned s books file pageNo (.ok,s')
  | refused (status : Status) (failed : status ≠ .ok) (known : status ≠ .hashTblError) :
      UnPinned s books file pageNo (status,s)

theorem unPinPage_unpinned {s : Storage} {books : Books} (tally : Tally s.mgr s.disk books) (file : FileId)
    (pageNo : Int)
    (dirty : Bool) : UnPinned s books file pageNo (unPinPage s file pageNo dirty) := by
  unfold unPinPage
  cases present : s.mgr.hashTable.find hash file pageNo with
  | none =>
    rw [BufHashTbl.lookup_error present]
    exact .refused _ (by decide) (by decide)
  | some frame =>
    obtain ⟨inside,holds⟩ := tally.listed file pageNo frame present
    have low := tally.pins frame inside
    rw [BufHashTbl.lookup_ok present]
    dsimp only
    split
    · exact .refused _ (by decide) (by decide)
    · refine .done _ ?_ rfl
      rw [← tally.pinned frame file pageNo inside holds]
      cases dirty
      · exact tally.repin present (d:={s.mgr.bufTable frame with pinCnt := (s.mgr.bufTable frame).pinCnt - 1})
          rfl rfl rfl rfl
          (by dsimp only; omega)
      · exact tally.repin present (d:={s.mgr.bufTable frame with pinCnt := (s.mgr.bufTable frame).pinCnt - 1, dirty := true})
          rfl rfl rfl rfl (by dsimp only; omega)

structure Flushed (s : Storage) (books : Books) (result : Status × Storage) : Prop where
  tally : Tally result.2.mgr result.2.disk books
  pages : SamePages s.disk result.2.disk
  known : result.1 ≠ .hashTblError

theorem flushFrames_flushed (io : Faults) (file : FileId) (turns i : Nat) {s : Storage} {books : Books}
    (reach : i + turns = s.mgr.numBufs) (tally : Tally s.mgr s.disk books) :
    Flushed s books (s.flushFrames hash io file turns i) := by
  induction turns generalizing i s with
  | zero => exact ⟨tally,.refl,by simp [Storage.flushFrames]⟩
  | succ turns ih =>
    have inside : i < s.mgr.numBufs := by omega
    unfold Storage.flushFrames
    dsimp only
    by_cases ours : (s.mgr.bufTable i).valid = true ∧ (s.mgr.bufTable i).file = some file
    · rw [if_pos ours]
      have holds : (s.mgr.bufTable i).Holds file (s.mgr.bufTable i).pageNo := ⟨ours.1,ours.2,rfl⟩
      have low := tally.pins i inside
      by_cases busy : (s.mgr.bufTable i).pinCnt > 0
      · rw [if_pos busy]
        exact ⟨tally,.refl,by dsimp only; decide⟩
      · rw [if_neg busy]
        have written : (if (s.mgr.bufTable i).dirty = true then s.writeFrame io i else (.ok,s)).2.mgr = s.mgr ∧
            SamePages s.disk (if (s.mgr.bufTable i).dirty = true then s.writeFrame io i else (.ok,s)).2.disk ∧
            (if (s.mgr.bufTable i).dirty = true then s.writeFrame io i else (.ok,s)).1 ≠ .hashTblError := by
          split
          · refine ⟨Storage.writeFrame_mgr io s i,Storage.writeFrame_pages ours.2 (tally.stored _ _ _ inside holds),
              fun same => ?_⟩
            have known := s.writeFrame_status io i
            rw [same] at known
            exact absurd known (by decide)
          · exact ⟨rfl,.refl,by dsimp only; decide⟩
        generalize (if (s.mgr.bufTable i).dirty = true then s.writeFrame io i else (.ok,s)) = w at written ⊢
        obtain ⟨status,s'⟩ := w
        obtain ⟨same,pages,known⟩ := written
        dsimp only at same pages known ⊢
        split
        · exact ⟨by rw [same]; exact tally.same_pages pages,pages,known⟩
        · rw [same]
          have vacated := (tally.same_pages pages).vacate inside holds
            (d:={s.mgr.bufTable i with dirty := false, file := none, pageNo := -1, valid := false})
            ⟨rfl,rfl,rfl,by dsimp only; omega⟩ (tally.numbered i inside)
          obtain ⟨after,more,known'⟩ := ih (i+1) (s:=⟨_,s'.disk⟩) (by change i + 1 + turns = s.mgr.numBufs; omega)
            vacated
          exact ⟨after,pages.trans more,known'⟩
    · rw [if_neg ours]
      split
      · exact ⟨tally,.refl,by dsimp only; decide⟩
      · exact ih (i+1) (by omega) tally

theorem flushFile_flushed (io : Faults) (file : FileId) {s : Storage} {books : Books}
    (tally : Tally s.mgr s.disk books) :
    Flushed s books (s.flushFile hash io file) := flushFrames_flushed io file s.mgr.numBufs 0 (Nat.zero_add _) tally

namespace Ledger

structure Good (l : Ledger) : Prop where
  tally : Tally l.storage.mgr l.storage.disk l.books
  noFree : ∀ file, File.NoFreePages (l.storage.disk file)
  inserted : .hashTblError ∉ l.statuses

theorem start_good {bufs : Nat} {disk : Disk} (some_frame : 1 ≤ bufs)
    (none_free : ∀ file, File.NoFreePages (disk file)) :
    (start bufs disk).Good where
  tally := .init some_frame disk
  noFree := none_free
  inserted := List.not_mem_nil

theorem refused_mem {status : Status} {statuses : List Status} (known : status ≠ .hashTblError)
    (before : .hashTblError ∉ statuses) :
    .hashTblError ∉ status::statuses := fun member => by
  rcases List.mem_cons.mp member with same | old
  · exact known same.symm
  · exact before old

theorem step_good {l : Ledger} (good : l.Good) (io : Faults) (c : Call) (counted : l.Counted c) :
    (l.step io c).Good := by
  obtain ⟨tally,noFree,inserted⟩ := good
  cases c with
  | readPage file pageNo =>
    have read := readPage_read io tally file pageNo counted
    unfold step Storage.call booked
    dsimp only [release]
    generalize readPage io l.storage file pageNo = result at read ⊢
    cases read with
    | hit i s' present after pages =>
      rw [BufHashTbl.lookup_ok present]
      exact ⟨after,pages.noFree noFree,refused_mem (by simp [resultStatus]) inserted⟩
    | loaded i s' missing after pages =>
      rw [BufHashTbl.lookup_error missing]
      exact ⟨after,pages.noFree noFree,refused_mem (by simp [resultStatus]) inserted⟩
    | failed status s' after pages known => exact ⟨after,pages.noFree noFree,refused_mem known inserted⟩
  | allocPage file =>
    have granted := allocPage_granted io tally file noFree
    unfold step Storage.call booked
    dsimp only [release]
    generalize allocPage io l.storage file = result at granted ⊢
    cases granted with
    | made pageNo i s' after none => exact ⟨after,none,refused_mem (by simp [resultStatus]) inserted⟩
    | failed status s' after none known => exact ⟨after,none,refused_mem known inserted⟩
  | unPinPage file pageNo dirty =>
    have unpinned := unPinPage_unpinned tally file pageNo dirty
    unfold step Storage.call booked
    dsimp only [release]
    generalize unPinPage l.storage file pageNo dirty = result at unpinned ⊢
    cases unpinned with
    | done s' after same =>
      rw [if_pos rfl]
      exact ⟨after,by dsimp only; rw [same]; exact noFree,refused_mem (by simp) inserted⟩
    | refused status failed known =>
      rw [if_neg failed]
      exact ⟨tally,noFree,refused_mem known inserted⟩
  | flushFile file =>
    obtain ⟨after,pages,known⟩ := flushFile_flushed io file tally
    exact ⟨after,pages.noFree noFree,refused_mem known inserted⟩
  | modify frame page => exact ⟨tally.setPage page,noFree,refused_mem (by simp [Storage.call]) inserted⟩

theorem run_good {l : Ledger} (good : l.Good) (calls : List (Faults × Call)) (counted : l.CountedRun calls) :
    (l.run calls).Good := by
  induction calls generalizing l with
  | nil => exact good
  | cons call rest ih => exact ih (step_good good call.1 call.2 counted.1) counted.2

theorem Good.indexed {l : Ledger} (good : l.Good) : Indexed l := by
  obtain ⟨tally,_,inserted⟩ := good
  refine ⟨fun file pageNo i => ⟨tally.listed file pageNo i,fun held => tally.all i file pageNo held.1 held.2⟩,
    ?_,?_,?_,inserted⟩
  · intro i j file pageNo inside within one two
    exact Option.some.inj ((tally.all i _ _ inside one).symm.trans (tally.all j _ _ within two))
  · exact fun i inside invalid => ⟨tally.idle i inside invalid,tally.clean i inside invalid⟩
  · exact tally.pinned

end Ledger

theorem index_invariant_when_counted (bufs : Nat) (disk : Disk) (calls : List (Faults × Call)) (some_frame : 1 ≤ bufs)
    (none_free : ∀ file, File.NoFreePages (disk file)) (counted : (Ledger.start bufs disk).CountedRun calls) :
    Indexed ((Ledger.start bufs disk).run calls) :=
  (Ledger.run_good (Ledger.start_good some_frame none_free) calls counted).indexed

-- One frame: the header page cannot be written at first, then the page is made, pinned twice and given
-- back once, and a second page finds no frame.
theorem index_invariant_when_counted_one_frame :
    let works : Faults := fun _ => .working
    let fails : Faults := fun _ => ⟨fun _ => false,fun pageNo => pageNo = 0⟩
    let calls := [(fails,Call.allocPage 0),(works,.allocPage 0),(works,.readPage 0 1),(works,.unPinPage 0 1 true),
      (works,.allocPage 0),(works,.flushFile 0)]
    Indexed ((Ledger.start 1 fun _ => File.create).run calls) := by
  intro works fails calls
  refine index_invariant_when_counted 1 _ calls (by decide) (fun _ => File.create_counted.2) ?_
  refine ⟨trivial,trivial,?_,trivial,trivial,trivial,trivial⟩
  rintro ⟨_,past,_⟩
  revert past
  decide +kernel

-- allocPage writes page 1 and cannot write the header page. Page 1 is read all the same; the next
-- allocPage hands it out, and the table refuses a second entry for it.
theorem uncounted_page_twice : ¬ ∀ (bufs : Nat) (disk : Disk) (calls : List (Faults × Call)), 1 ≤ bufs →
    (∀ file, File.NoFreePages (disk file)) → Indexed ((Ledger.start bufs disk).run calls) := by
  intro indexed
  let works : Faults := fun _ => .working
  let fails : Faults := fun _ => ⟨fun _ => false,fun pageNo => pageNo = 0⟩
  let calls := [(fails,Call.allocPage 0),(works,.readPage 0 1),(works,.allocPage 0)]
  have inserted := (indexed 2 (fun _ => File.create) calls (by decide) fun _ => File.create_counted.2).inserted
  revert inserted
  decide +kernel

end Part3
end Minirel
