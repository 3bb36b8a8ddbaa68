import Minirel.OpenObjects
import Minirel.Db

namespace Minirel

-- What filePtr may hold: NULL, the File of an open file, or the address of a File that is gone.
inductive FilePtr where
  | null
  | freed
  | file (name : Name)
  deriving DecidableEq,Repr

inductive ObjectKind where
  | file | scan | insert
  deriving DecidableEq,Repr

namespace ObjectKind

-- The constructor of a class once the file is open.
def construct (b : Pool) (raw : HeapFileScan) : ObjectKind → Except Abort (Status × HeapObject × Pool)
  | .file => do
    let (status,h,b) ← HeapFile.construct b raw.toHeapFile
    return (status,.file h,b)
  | .scan => do
    let (status,s,b) ← HeapFileScan.construct b raw
    return (status,.scan s,b)
  | .insert => do
    let (status,s,b) ← InsertFileScan.construct b ⟨raw.toHeapFile⟩
    return (status,.insert s,b)

-- The constructor after db.openFile has failed: the members are what they were. InsertFileScan
-- goes on to its comparison, and headerPage points nowhere.
def unopened (raw : HeapFileScan) : ObjectKind → Except Abort HeapObject
  | .file => return .file raw.toHeapFile
  | .scan => return .scan {raw with filter := none}
  | .insert => if raw.curPage = none then return .insert ⟨raw.toHeapFile⟩ else throw .undefined

end ObjectKind

namespace Db

-- DB::openFile; `works` is the answer of ::open for a file that nobody has open. When it fails the
-- new File has been deleted and filePtr still points to it.
def openFilePtr (db : Db) (works : Bool) (name : Name) (filePtr : FilePtr) : Status × FilePtr × Db :=
  if name = [] then (.badFile,filePtr,db)
  else match db.files name with
    | none => (.unixErr,.freed,db)
    | some b =>
      if b.openCnt = 0 ∧ works = false then (.unixErr,.freed,db) else (.ok,.file name,db.setPool name b.openFile.2)

def constructObject (db : Db) (works : Bool) (name : Name) (filePtr : FilePtr) (raw : HeapFileScan)
    (kind : ObjectKind) :
    Except Abort (Status × FilePtr × HeapObject × Db) := do
  match db.openFilePtr works name filePtr with
  | (.ok,filePtr,db) =>
    let (status,o,b) ← kind.construct (← db.pool name) raw
    return (status,filePtr,o,db.setPool name b)
  | (status,filePtr,db) => return (status,filePtr,← kind.unopened raw,db)

-- No page is in the pool for a NULL file, and db.closeFile refuses it; a File that is gone is used.
def destroyObject (db : Db) (filePtr : FilePtr) (o : HeapObject) : Except Abort Db :=
  match filePtr with
  | .null => return db
  | .freed => throw .undefined
  | .file name => do return db.setPool name (o.destroy (← db.pool name))

-- The pins on the pages of a file and how often it is open.
def tally (b : Pool) : (Int → Nat) × Nat := (fun n => (b.frames n).elim 0 Frame.pins,b.openCnt)

def SamePins (db db' : Db) : Prop := ∀ name, (db'.files name).map tally = (db.files name).map tally

-- The object has opened the file and has pinned its header page and its first data page.
def BothPinned (db db' : Db) (name : Name) (h : HeapFile) : Prop :=
  ∃ b b' header, db.files name = some b ∧ db'.files name = some b' ∧ b'.openCnt = b.openCnt + 1 ∧
    h.headerPage = some (DBPage.firstPage (File.header b.file)) ∧
      b'.view (DBPage.firstPage (File.header b.file)) = some header ∧
    h.curPage = some (FileHdrPage.firstPage header) ∧
    (tally b').1 = (tally b).1 + Pi.single (DBPage.firstPage (File.header b.file)) 1 + Pi.single
    (FileHdrPage.firstPage header) 1

-- returnStatus is OK exactly when the file is open and both pages are pinned.
def StatusRight (db : Db) (works : Bool) (name : Name) (filePtr : FilePtr) (raw : HeapFileScan) : Prop :=
  ∃ status filePtr' o db', db.constructObject works name filePtr raw .file = .ok (status,filePtr',o,db') ∧
    (status = .ok ↔ BothPinned db db' name o.base)

-- The destructor undoes what the constructor has done to the pins and the opens, of whatever file.
def Undone (db : Db) (works : Bool) (name : Name) (filePtr : FilePtr) (raw : HeapFileScan) (kind : ObjectKind) : Prop :=
  ∃ status filePtr' o db1 db2, db.constructObject works name filePtr raw kind = .ok (status,filePtr',o,db1) ∧
    db1.destroyObject filePtr' o = .ok db2 ∧ SamePins db db2

-- The file opens, its header page is the one that is read, and both pages can be read; or the name
-- is refused at once and the members are NULL.
def OpensRight (db : Db) (works : Bool) (name : Name) (filePtr : FilePtr) (raw : HeapFileScan) (kind : ObjectKind) :
    Prop :=
  (name = [] ∧ filePtr = .null ∧ (kind = .insert → raw.curPage = none)) ∨
    (name ≠ [] ∧ ∃ b, db.files name = some b ∧ (b.openCnt = 0 → works = true) ∧
      HeapFile.reads b.openFile.2 raw.toHeapFile = true ∧
      HeapFile.headerNo b.openFile.2 raw.toHeapFile = DBPage.firstPage (File.header b.file))

end Db

variable {others : Int → Nat} {b : Pool} {db : Db} {works : Bool} {name : Name} {filePtr : FilePtr} {raw : HeapFileScan} {kind : ObjectKind}

theorem Pool.unPinPage_openCnt (b : Pool) (n : Int) (dirty : Bool) : (b.unPinPage n dirty).2.openCnt = b.openCnt := by
  unfold Pool.unPinPage
  split
  · rfl
  · cases dirty <;> rfl

theorem HeapFile.destroy_openCnt (b : Pool) (h : HeapFile) : (h.destroy b).openCnt = b.openCnt - 1 := by
  unfold HeapFile.destroy
  dsimp only [Pool.closeFile]
  rw [Pool.unPinPage_openCnt]
  split
  · rw [Pool.unPinPage_openCnt]
  · rfl

theorem HeapObject.destroy_openCnt (b : Pool) (o : HeapObject) : (o.destroy b).openCnt = b.openCnt - 1 := by
  cases o with
  | file h => exact h.destroy_openCnt b
  | scan s =>
    have same : (s.endScan b).2.2.openCnt = b.openCnt := by
      unfold HeapFileScan.endScan
      split
      · exact Pool.unPinPage_openCnt ..
      · rfl
    refine (HeapFile.destroy_openCnt (s.endScan b).2.2 (s.endScan b).2.1.toHeapFile).trans ?_
    rw [same]
  | insert s =>
    dsimp only [destroy,InsertFileScan.destroy]
    split
    · rw [HeapFile.destroy_openCnt,Pool.unPinPage_openCnt]
    · exact HeapFile.destroy_openCnt ..

namespace InsertFileScan

-- Also when the last page cannot be read: nobody has a pin on it that the destructor could take.
theorem construct_undone (tallied : b.Tallied others) (raw : InsertFileScan) (reads : HeapFile.reads b raw.toHeapFile = true) :
    ∃ status s b', construct b raw = .ok (status,s,b') ∧ (s.destroy b').Tallied others ∧ b'.openCnt = b.openCnt := by
  have opening := HeapFile.construct_opening tallied raw.toHeapFile
  rw [reads] at opening
  rw [construct]
  generalize HeapFile.construct b raw.toHeapFile = result at opening
  cases opening with
  | both header b1 tallied1 seen opens1 =>
    generalize HeapFile.headerNo b raw.toHeapFile = hdr at tallied1 seen
    have owns : HeapFile.Owns others b1 (HeapFile.fresh hdr (FileHdrPage.firstPage header)) :=
      HeapFile.owns_fresh tallied1
    obtain ⟨page,there⟩ := owns.header_there
    rw [ok_bind]
    dsimp only
    rw [there,ok_bind]
    by_cases elsewhere : (HeapFile.fresh hdr (FileHdrPage.firstPage header)).curPage ≠ none ∧
        (HeapFile.fresh hdr (FileHdrPage.firstPage header)).curPageNo ≠ FileHdrPage.lastPage page
    · obtain ⟨b2,unpinned,tallied2,_⟩ :=
        owns.leave elsewhere.1 (HeapFile.fresh hdr (FileHdrPage.firstPage header)).curDirtyFlag
      have opens2 : b2.openCnt = b1.openCnt := by
        have same := Pool.unPinPage_openCnt b1 (HeapFile.fresh hdr (FileHdrPage.firstPage header)).curPageNo
          (HeapFile.fresh hdr (FileHdrPage.firstPage header)).curDirtyFlag
        rwa [unpinned] at same
      rw [if_pos elsewhere,unpinned]
      dsimp only
      have tallied2 : b2.Tallied (others + Pi.single hdr 1) := tallied2
      rcases tallied2.readPage (FileHdrPage.lastPage page) with
        ⟨b3,read3,tallied3,_,opens3,_⟩ | ⟨status,b3,read3,refused,tallied3,opens3,frames,absent⟩
      · have owns3 : HeapFile.Owns others b3 (HeapFile.fresh hdr (FileHdrPage.lastPage page)) :=
          HeapFile.owns_fresh tallied3
        refine ⟨.ok,⟨HeapFile.fresh hdr (FileHdrPage.lastPage page)⟩,b3,?_,HeapObject.destroy_tallied (o:=.insert ⟨_⟩) owns3,
          opens3.trans (opens2.trans opens1)⟩
        rw [read3]
        rfl
      · refine ⟨status,⟨{HeapFile.fresh hdr (FileHdrPage.firstPage header) with curPageNo := FileHdrPage.lastPage page, curDirtyFlag := false}⟩,b3,
          ?_,?_,opens3.trans (opens2.trans opens1)⟩
        · rw [read3]
          cases status <;> first | exact absurd rfl refused | rfl
        · have missing : b3.unPinPage (FileHdrPage.lastPage page) true = (.hashNotFound,b3) := by
            simp only [Pool.unPinPage,frames,absent]
          have owns3 : HeapFile.Owns others b3 {HeapFile.fresh hdr (FileHdrPage.firstPage header) with curPage := none, curPageNo := 0} :=
            HeapFile.owns_alone tallied3 rfl rfl
          simp only [destroy,HeapFile.fresh,missing]
          exact HeapObject.destroy_tallied (o:=.file _) owns3
    · exact ⟨.ok,⟨HeapFile.fresh hdr (FileHdrPage.firstPage header)⟩,b1,by rw [if_neg elsewhere]; rfl,
        HeapObject.destroy_tallied (o:=.insert ⟨_⟩) owns,opens1⟩

end InsertFileScan

-- An object of any class that was constructed with both reads successful leaves no trace.
theorem ObjectKind.construct_undone (kind : ObjectKind) (tallied : b.Tallied others) (raw : HeapFileScan)
    (reads : HeapFile.reads b raw.toHeapFile = true) :
    ∃ status o b', kind.construct b raw = .ok (status,o,b') ∧ (o.destroy b').Tallied others ∧
      b'.openCnt = b.openCnt := by
  have opening := HeapFile.construct_opening tallied raw.toHeapFile
  rw [reads] at opening
  cases kind with
  | file =>
    rw [construct]
    generalize HeapFile.construct b raw.toHeapFile = result at opening
    cases opening with
    | both header b1 tallied1 _ opens1 =>
      exact ⟨.ok,_,b1,rfl,HeapObject.destroy_tallied (o:=.file _) (HeapFile.owns_fresh tallied1),opens1⟩
  | scan =>
    rw [construct,HeapFileScan.construct]
    generalize HeapFile.construct b raw.toHeapFile = result at opening
    cases opening with
    | both header b1 tallied1 _ opens1 =>
      exact ⟨.ok,_,b1,rfl,HeapObject.destroy_tallied
        (o:=.scan {raw with toHeapFile := HeapFile.fresh _ _, filter := none})
        (HeapFile.owns_fresh tallied1),opens1⟩
  | insert =>
    obtain ⟨status,s,b',made,undone,opens⟩ := InsertFileScan.construct_undone tallied ⟨raw.toHeapFile⟩ reads
    exact ⟨status,.insert s,b',by rw [construct,made]; rfl,undone,opens⟩

namespace Db

theorem samePins_refl (db : Db) : SamePins db db := fun _ => rfl

theorem samePins_setPool {b' : Pool} (found : db.files name = some b) (pins : b'.Tallied others)
    (pins' : b.Tallied others)
    (opens : b'.openCnt = b.openCnt) : SamePins db (db.setPool name b') := by
  intro other
  by_cases here : other = name
  · subst here
    rw [setPool_same,found,Option.map_some,Option.map_some,tally,tally,opens]
    refine congrArg (fun pins => some (pins,b.openCnt)) ?_
    funext n
    rw [pins.pinned,pins'.pinned]
  · rw [setPool_other b' here]

-- The file is there and opens.
theorem openFilePtr_opens (named : name ≠ []) (found : db.files name = some b) (opens : b.openCnt = 0 → works = true) :
    db.openFilePtr works name filePtr = (.ok,.file name,db.setPool name b.openFile.2) := by
  rw [openFilePtr,if_neg named,found]
  refine if_neg fun refused => ?_
  rw [opens refused.1] at refused
  cases refused.2

theorem constructObject_opens (filePtr : FilePtr) (raw : HeapFileScan) (kind : ObjectKind) (named : name ≠ [])
    (found : db.files name = some b) (opens : b.openCnt = 0 → works = true) :
    db.constructObject works name filePtr raw kind = (do
      let (status,o,b) ← kind.construct b.openFile.2 raw
      return (status,.file name,o,db.setPool name b)) := by
  rw [constructObject,openFilePtr_opens named found opens]
  dsimp only
  rw [pool_setPool,ok_bind]
  generalize kind.construct b.openFile.2 raw = result
  cases result with
  | error abort => rfl
  | ok r =>
    rw [ok_bind,ok_bind,setPool_setPool]

-- The file does not open: then nothing is opened, and the pointer is that of a File that is gone.
theorem openFilePtr_fails (named : name ≠ []) (fails : ∀ b, db.files name = some b → ¬ (b.openCnt = 0 → works = true)) :
    db.openFilePtr works name filePtr = (.unixErr,.freed,db) := by
  rw [openFilePtr,if_neg named]
  cases found : db.files name with
  | none => rfl
  | some b =>
    obtain ⟨closed,refused⟩ := Classical.not_imp.mp (fails b found)
    exact if_pos ⟨closed,by simpa using refused⟩

theorem not_bothPinned_same (h : HeapFile) : ¬ BothPinned db db name h := by
  rintro ⟨b,b',header,found,found',opens,_⟩
  cases Option.some.inj (found.symm.trans found')
  omega

-- One page more is not two.
theorem two_pins (pins : Int → Nat) (a n m : Int) : pins + Pi.single a 1 ≠ pins + Pi.single n 1 + Pi.single m 1 := by
  intro same
  have at_n := congrFun same n
  have at_m := congrFun same m
  simp only [Pi.add_apply,Pi.single_apply] at at_n at_m
  grind

-- Which reads have succeeded decides what returnStatus is worth.
theorem statusRight_opens (named : name ≠ []) (found : db.files name = some b) (opens : b.openCnt = 0 → works = true)
    (tallied : b.Tallied others) :
    StatusRight db works name filePtr raw ↔ HeapFile.reads b.openFile.2 raw.toHeapFile = true ∧
      HeapFile.headerNo b.openFile.2 raw.toHeapFile = DBPage.firstPage (File.header b.file) := by
  have opening := HeapFile.construct_opening (tallied.openCnt (b.openCnt + 1)) raw.toHeapFile
  have opened : {b with openCnt := b.openCnt + 1} = b.openFile.2 := rfl
  rw [opened] at opening
  have whole := constructObject_opens filePtr raw .file named found opens
  rw [ObjectKind.construct] at whole
  rw [StatusRight,whole]
  generalize HeapFile.headerNo b.openFile.2 raw.toHeapFile = hdr at opening ⊢
  generalize HeapFile.reads b.openFile.2 raw.toHeapFile = reads at opening ⊢
  generalize HeapFile.construct b.openFile.2 raw.toHeapFile = result at opening
  have count : ∀ {b' : Pool} {pins : Int → Nat}, b'.Tallied pins →
    (tally b').1 = pins := fun tallied' => funext tallied'.pinned
  cases opening with
  | both header b' tallied' seen opens' =>
    constructor
    · rintro ⟨status,ptr,o,db',made,right⟩
      cases made
      obtain ⟨b1,b2,_,found1,_,_,header1,_⟩ := right.mp rfl
      cases Option.some.inj (found.symm.trans found1)
      exact ⟨rfl,Option.some.inj header1⟩
    · rintro ⟨_,rfl⟩
      refine ⟨_,_,_,_,rfl,fun _ => ?_,fun _ => rfl⟩
      exact ⟨b,b',header,found,setPool_same ..,opens',rfl,seen,rfl,by rw [count tallied',count tallied]⟩
  | noPage n b' tallied' opens' =>
    constructor
    · rintro ⟨status,ptr,o,db',made,right⟩
      cases made
      obtain ⟨b1,b2,header,found1,found2,_,_,_,_,pins⟩ := right.mp rfl
      cases Option.some.inj (found.symm.trans found1)
      rw [setPool_same] at found2
      cases found2
      rw [count tallied',count tallied] at pins
      exact absurd pins (two_pins _ _ _ _)
    · rintro ⟨none,_⟩
      cases none
  | noHeader =>
    constructor
    · rintro ⟨status,ptr,o,db',made,_⟩
      cases made
    · rintro ⟨none,_⟩
      cases none

-- The constructors and destructors keep the protocol exactly when the file opens with both pages,
-- or is refused for its name while the members are NULL.
theorem open_protocol_iff (db : Db) (works : Bool) (name : Name) (filePtr : FilePtr) (raw : HeapFileScan)
    (kind : ObjectKind)
    (tallied : ∀ b, db.files name = some b → ∃ pins, b.Tallied pins)
    (genuine : ∀ other, filePtr = .file other → ∃ b, db.files other = some b ∧ 0 < b.openCnt) :
    (StatusRight db works name filePtr raw ∧ Undone db works name filePtr raw kind) ↔
    OpensRight db works name filePtr raw kind := by
  by_cases named : name = []
  · -- BADFILE: filePtr is still what it was.
    have whole : ∀ kind, db.constructObject works name filePtr raw kind =
        (do return (.badFile,filePtr,← kind.unopened raw,db)) := by
      intro kind
      rw [constructObject,openFilePtr,if_pos named]
    have right : StatusRight db works name filePtr raw :=
      ⟨_,_,_,db,whole .file,⟨fun fine => (by cases fine),fun both => absurd both (not_bothPinned_same _)⟩⟩
    constructor
    · rintro ⟨_,status,ptr,o,db1,db2,made,destroyed,same⟩
      rw [whole kind] at made
      obtain ⟨o',unopened,made⟩ := of_bind_ok made
      cases made
      refine .inl ⟨named,?_,?_⟩
      · cases filePtr with
        | null => rfl
        | freed => cases destroyed
        | file other =>
          obtain ⟨b,there,positive⟩ := genuine other rfl
          rw [destroyObject,pool_found there] at destroyed
          cases destroyed
          have counts := same other
          rw [setPool_same,there] at counts
          have closed : (o.destroy b).openCnt = b.openCnt := congrArg Prod.snd (Option.some.inj counts)
          rw [HeapObject.destroy_openCnt] at closed
          omega
      · rintro rfl
        by_cases free : raw.curPage = none
        · exact free
        · rw [ObjectKind.unopened,if_neg free] at unopened
          cases unopened
    · rintro (⟨_,rfl,free⟩ | ⟨some_name,_⟩)
      · refine ⟨right,?_⟩
        obtain ⟨o,unopened⟩ : ∃ o, kind.unopened raw = .ok o := by
          cases kind with
          | file => exact ⟨_,rfl⟩
          | scan => exact ⟨_,rfl⟩
          | insert => exact ⟨_,by rw [ObjectKind.unopened,if_pos (free rfl)]; rfl⟩
        exact ⟨_,_,o,db,db,by rw [whole kind,unopened]; rfl,rfl,samePins_refl db⟩
      · exact absurd named some_name
  · by_cases opens : ∃ b, db.files name = some b ∧ (b.openCnt = 0 → works = true)
    · obtain ⟨b,found,opens⟩ := opens
      obtain ⟨pins,tallied⟩ := tallied b found
      rw [statusRight_opens named found opens tallied]
      constructor
      · rintro ⟨⟨reads,number⟩,_⟩
        exact .inr ⟨named,b,found,opens,reads,number⟩
      · rintro (⟨unnamed,_⟩ | ⟨_,b',found',_,reads,number⟩)
        · exact absurd unnamed named
        · cases Option.some.inj (found.symm.trans found')
          obtain ⟨status,o,b1,made,undone,count⟩ :=
            kind.construct_undone (b:=b.openFile.2) (tallied.openCnt (b.openCnt + 1)) raw reads
          refine ⟨⟨reads,number⟩,status,.file name,o,db.setPool name b1,db.setPool name (o.destroy b1),?_,?_,?_⟩
          · rw [constructObject_opens filePtr raw kind named found opens,made]
            rfl
          · rw [destroyObject,pool_setPool,ok_bind,setPool_setPool]
            rfl
          · refine samePins_setPool found undone tallied ?_
            rw [HeapObject.destroy_openCnt,count]
            exact Nat.add_sub_cancel ..
    · -- The File has been deleted: closeFile uses it, whatever the members were.
      have fails : ∀ b, db.files name = some b → ¬ (b.openCnt = 0 → works = true) := fun b found opens' =>
        opens ⟨b,found,opens'⟩
      constructor
      · rintro ⟨_,status,ptr,o,db1,db2,made,destroyed,_⟩
        rw [constructObject,openFilePtr_fails named fails] at made
        obtain ⟨o',_,made⟩ := of_bind_ok made
        cases made
        cases destroyed
      · rintro (⟨unnamed,_⟩ | ⟨_,b,found,opens',_⟩)
        · exact absurd unnamed named
        · exact absurd ⟨b,found,opens'⟩ opens

def oneFile : Db :=
  ⟨fun name => if name = [114] then some Writers.emptyFile else none,fun _ _ => ByteMemory.zero 1024,
    Writers.rawScan,.untouched⟩

-- A file with one data page, for inserting.
theorem open_protocol_kept : StatusRight oneFile true [114] .null Writers.rawScan ∧
    Undone oneFile true [114] .null Writers.rawScan .insert := by
  have tallied : ∀ b, oneFile.files [114] = some b → ∃ pins, b.Tallied pins := by
    intro b found
    cases found
    exact ⟨0,OpenObjects.emptyFile_tallied⟩
  have genuine : ∀ other, FilePtr.null = .file other → ∃ b, oneFile.files other = some b ∧
    0 < b.openCnt := fun other same => by cases same
  refine (open_protocol_iff oneFile true [114] .null Writers.rawScan .insert tallied genuine).mpr
    (.inr ⟨by decide,Writers.emptyFile,rfl,fun _ => rfl,?_⟩)
  decide +kernel

-- QU_Insert on a relation without a file: all members are NULL, and the destructor closes a File
-- that has been deleted.
theorem open_protocol_broken :
    let unset : HeapFileScan := {Writers.rawScan with headerPage := none, curPage := none}
    ¬ (StatusRight oneFile true [115] .null unset ∧ Undone oneFile true [115] .null unset .insert) := by
  rintro unset ⟨_,status,ptr,o,db1,db2,made,destroyed,_⟩
  have missing : oneFile.files [115] = none := by
    dsimp only [oneFile]
    exact if_neg (by decide)
  rw [constructObject,openFilePtr_fails (by decide) fun b found => by rw [missing] at found; cases found] at made
  obtain ⟨o',_,made⟩ := of_bind_ok made
  cases made
  cases destroyed

end Db
end Minirel
