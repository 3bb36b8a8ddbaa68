import Minirel.OpenProtocol
import Minirel.HeapRoom

namespace Minirel
open ByteMemory SlotDirectory Page Heap

-- How the calls answer that make a heap file: ::open when the name is probed and nobody has the file
-- open, the three calls of File::create, ::open of the new file, which calls of the buffer manager on
-- it fail and how, and what flushFile returns.
structure Unix where
  probes : Bool
  creates : Bool
  writes : Bool
  closes : Bool
  opens : Bool
  faults : List (Option Status)
  flushes : Status

def Unix.working : Unix := ⟨true,true,true,true,true,[],.ok⟩

-- createHeapFile once the file is open, with the flush before the close.
def Pool.makeHeapFile (b : Pool) (fileName : Name) (flushes : Status) : Except Abort (Status × Pool) := do
  match b.allocPage with
  | (.error status,b) => return (status,b)
  | (.ok hdrPageNo,b) =>
    let b := b.assign (some hdrPageNo) (FileHdrPage.setFileName (← b.deref (some hdrPageNo)) fileName)
    match b.allocPage with
    | (.error status,b) => return (status,b)
    | (.ok newPageNo,b) =>
      let newPage ← b.deref (some newPageNo)
      let b := b.assign (some newPageNo) ((newPage.init newPageNo).setNextPage (-1))
      let hdrPage ← b.deref (some hdrPageNo)
      let hdrPage := FileHdrPage.setPageCnt (FileHdrPage.setRecCnt hdrPage 0) 1
      let hdrPage := FileHdrPage.setFirstPage (FileHdrPage.setLastPage hdrPage newPageNo) newPageNo
      let b := b.assign (some hdrPageNo) hdrPage
      match b.unPinPage newPageNo true with
      | (.ok,b) =>
        match b.unPinPage hdrPageNo true with
        | (.ok,b) => if flushes ≠ .ok then return (flushes,b) else return b.closeFile
        | (status,b) => return (status,b)
      | (status,b) => return (status,b)

namespace Db

-- A file whose header page could not be written is empty.
def createFileOn (db : Db) (unix : Unix) (name : Name) : Status × Db :=
  if name = [] then (.badFile,db)
  else match db.files name with
    | some _ => (.fileExists,db)
    | none =>
      if unix.creates = false then (.unixErr,db)
      else if unix.writes = false then (.unixErr,db.setPool name ⟨[],fun _ => none,0,db.stale name,unix.faults⟩)
      else
        let db := db.setPool name ⟨File.create,fun _ => none,0,db.stale name,unix.faults⟩
        if unix.closes = false then (.unixErr,db) else (.ok,db)

def createHeapFileOn (db : Db) (unix : Unix) (name : Name) : Except Abort (Status × Db) := do
  match db.openFilePtr unix.probes name .null with
  | (.ok,_,db) => return (.fileExists,db)
  | (_,_,db) =>
    match db.createFileOn unix name with
    | (.ok,db) =>
      match db.openFilePtr unix.opens name .null with
      | (.ok,_,db) =>
        let (status,b) ← (← db.pool name).makeHeapFile name unix.flushes
        return (status,db.setPool name b)
      | (status,_,db) => return (status,db)
    | (status,db) => return (status,db)

end Db

def RelCatalog.createRelOn (db : Db) (unix : Unix) (relation : Name) (attrList : List AttrInfo) :
    Except Abort (Status × Db) := do
  if relation = [] ∨ attrList.length < 1 then return (.badCatParm,db)
  if relation.length ≥ maxName then return (.nameTooLong,db)
  let (status,_,db) ← getInfo db relation ⟨[],0⟩
  if status = .ok then return (.relExists,db)
  if status ≠ .relNotFound then return (status,db)
  if ¬ (attrList.map AttrInfo.attrName).Nodup then return (.duplAttr,db)
  if tupleWidth attrList > pageSize then return (.attrTooLong,db)
  let (status,db) ← addInfo db ⟨relation,attrList.length⟩
  if status ≠ .ok then return (status,db)
  let (status,db) ← addAttributes relation attrList 0 db
  if status ≠ .ok then return (status,db)
  db.createHeapFileOn unix relation

section working

-- Where every call works these are the functions without the calls' answers.
theorem Pool.makeHeapFile_ok (b : Pool) (fileName : Name) : b.makeHeapFile fileName .ok = b.createHeapFile fileName :=
    rfl

theorem Db.createFileOn_working (db : Db) (name : Name) : db.createFileOn .working name = db.createFile name := by
  unfold Db.createFileOn Db.createFile
  by_cases named : name = []
  · simp [named]
  · cases found : db.files name <;> simp [named,Unix.working]

theorem Db.createHeapFileOn_working (db : Db) (name : Name) :
    db.createHeapFileOn .working name = db.createHeapFile name := by
  unfold Db.createHeapFileOn Db.createHeapFile
  by_cases named : name = []
  · simp [Db.openFilePtr,Db.openFile,Db.createFileOn,Db.createFile,named]
  · cases found : db.files name with
    | some b => simp [Db.openFilePtr,Db.openFile,named,found,Unix.working,Pool.openFile]
    | none =>
      simp only [Db.createFileOn_working]
      simp [Db.openFilePtr,Db.openFile,Db.createFile,named,found,Unix.working,Pool.openFile,Pool.makeHeapFile_ok]

theorem RelCatalog.createRelOn_working (db : Db) (relation : Name) (attrList : List AttrInfo) :
    createRelOn db .working relation attrList = createRel db relation attrList := by
  simp only [createRelOn,createRel,Db.createHeapFileOn_working]

end working

-- The pages that are being set up have frames, so the calls always return.
namespace Pool

variable {b b' : Pool} {n m : Int}

theorem deref_there (there : (b.frames n).isSome) : ∃ page, b.deref (some n) = .ok page := by
  obtain ⟨frame,held⟩ := Option.isSome_iff_exists.mp there
  exact ⟨frame.page,by simp only [deref,held]⟩

theorem setFrame_there (frame : Frame) (there : n = m ∨ (b.frames n).isSome) :
    ((b.setFrame m (some frame)).frames n).isSome := by
  unfold setFrame
  by_cases here : n = m
  · simp [here]
  · simpa [here] using there

theorem assign_there (ptr : Ptr) (page : Page) (there : (b.frames n).isSome) :
    ((b.assign ptr page).frames n).isSome := by
  cases ptr with
  | none => exact there
  | some m =>
    rw [assign]
    cases b.frames m with
    | none => exact there
    | some frame => exact setFrame_there _ (.inr there)

theorem allocPage_there (allocated : b.allocPage = (.ok m,b')) (there : n = m ∨ (b.frames n).isSome) :
    (b'.frames n).isSome := by
  unfold allocPage at allocated
  dsimp only at allocated
  split at allocated
  · cases allocated
  · split at allocated
    · cases allocated
    · cases allocated
      exact setFrame_there _ there

theorem makeHeapFile_returns (b : Pool) (fileName : Name) (flushes : Status) :
    ∃ status b', b.makeHeapFile fileName flushes = .ok (status,b') := by
  unfold makeHeapFile
  generalize first : b.allocPage = outcome
  obtain ⟨allocated,b1⟩ := outcome
  cases allocated with
  | error status => exact ⟨status,b1,rfl⟩
  | ok hdrPageNo =>
    have header1 : (b1.frames hdrPageNo).isSome := allocPage_there first (.inl rfl)
    obtain ⟨hdrPage,read1⟩ := deref_there header1
    dsimp only
    rw [read1,ok_bind]
    have header2 := assign_there (some hdrPageNo) (FileHdrPage.setFileName hdrPage fileName) header1
    generalize b1.assign (some hdrPageNo) (FileHdrPage.setFileName hdrPage fileName) = b2 at header2 ⊢
    generalize second : b2.allocPage = outcome
    obtain ⟨allocated,b3⟩ := outcome
    cases allocated with
    | error status => exact ⟨status,b3,rfl⟩
    | ok newPageNo =>
      obtain ⟨newPage,read3⟩ := deref_there (allocPage_there second (.inl rfl))
      have header3 : (b3.frames hdrPageNo).isSome := allocPage_there second (.inr header2)
      obtain ⟨hdrPage4,read4⟩ := deref_there (assign_there (some newPageNo) ((newPage.init newPageNo).setNextPage (-1))
        header3)
      dsimp only
      rw [read3,ok_bind,read4,ok_bind]
      split
      · split
        · split
          · exact ⟨_,_,rfl⟩
          · exact ⟨_,_,rfl⟩
        · exact ⟨_,_,rfl⟩
      · exact ⟨_,_,rfl⟩

end Pool

namespace Db

-- The name is empty, the file cannot be made, or it is there and cannot be opened.
def Refuses (db : Db) (unix : Unix) (name : Name) : Prop :=
  name = [] ∨ db.files name = none ∧ unix.creates = false ∨ ∃ b, db.files name = some b ∧ b.openCnt = 0 ∧
    unix.probes = false

-- Every way createHeapFile can end: nothing has been done, the file was there and is open once more,
-- or it has been made, whatever happened after that.
inductive MakingHeapFile (db : Db) (unix : Unix) (name : Name) : Except Abort (Status × Db) → Prop where
  | refused {status : Status} (failed : status ≠ .ok) (why : db.Refuses unix name) : MakingHeapFile db unix name
      (.ok (status,db))
  | opened {b : Pool} (named : name ≠ []) (found : db.files name = some b) (opens : b.openCnt = 0 →
      unix.probes = true) :
      MakingHeapFile db unix name (.ok (.fileExists,db.setPool name b.openFile.2))
  | made {status : Status} {b : Pool} (named : name ≠ []) (missing : db.files name = none)
      (creates : unix.creates = true) :
      MakingHeapFile db unix name (.ok (status,db.setPool name b))

variable {db : Db} {unix : Unix} {name : Name}

theorem createFileOn_made (named : name ≠ []) (missing : db.files name = none) (creates : unix.creates = true) :
    ∃ status b, db.createFileOn unix name = (status,db.setPool name b) := by
  rw [createFileOn,if_neg named,missing]
  dsimp only
  rw [if_neg (by simp [creates])]
  split
  · exact ⟨_,_,rfl⟩
  · split
    · exact ⟨_,_,rfl⟩
    · exact ⟨_,_,rfl⟩

-- The new file is opened, or is left as it was created.
theorem openFilePtr_made (db : Db) (b : Pool) (works : Bool) (named : name ≠ []) :
    (∃ filePtr b', (db.setPool name b).openFilePtr works name .null = (.ok,filePtr,db.setPool name b')) ∨
    ∃ filePtr, (db.setPool name b).openFilePtr works name .null = (.unixErr,filePtr,db.setPool name b) := by
  by_cases opens : b.openCnt = 0 → works = true
  · left
    refine ⟨.file name,b.openFile.2,?_⟩
    rw [openFilePtr_opens named (setPool_same ..) opens,setPool_setPool]
  · right
    refine ⟨.freed,openFilePtr_fails named ?_⟩
    intro b' found
    rw [setPool_same] at found
    cases found
    exact opens

theorem createHeapFileOn_spec (db : Db) (unix : Unix) (name : Name) :
    MakingHeapFile db unix name (db.createHeapFileOn unix name) := by
  by_cases named : name = []
  · have answer : db.createHeapFileOn unix name = .ok (.badFile,db) := by
      simp [createHeapFileOn,openFilePtr,createFileOn,named]
      rfl
    rw [answer]
    exact .refused (by decide) (.inl named)
  cases found : db.files name with
  | some b =>
    by_cases opens : b.openCnt = 0 → unix.probes = true
    · rw [createHeapFileOn,openFilePtr_opens named found opens]
      exact .opened named found opens
    · have stays : db.createHeapFileOn unix name = .ok (.fileExists,db) := by
        rw [createHeapFileOn,openFilePtr_fails named]
        · simp [createFileOn,named,found]
          rfl
        · intro b' there
          cases Option.some.inj (found.symm.trans there)
          exact opens
      rw [stays]
      obtain ⟨closed,fails⟩ := Classical.not_imp.mp opens
      exact .refused (by decide) (.inr (.inr ⟨b,found,closed,by simpa using fails⟩))
  | none =>
    have unopened : db.openFilePtr unix.probes name .null = (.unixErr,.freed,db) := by
      apply openFilePtr_fails named
      intro b there
      rw [found] at there
      cases there
    by_cases creates : unix.creates = true
    swap
    · have stays : db.createHeapFileOn unix name = .ok (.unixErr,db) := by
        rw [createHeapFileOn,unopened]
        simp [createFileOn,named,found,creates]
        rfl
      rw [stays]
      exact .refused (by decide) (.inr (.inl ⟨found,by simpa using creates⟩))
    obtain ⟨status,b,created⟩ := createFileOn_made named found creates
    rw [createHeapFileOn,unopened]
    dsimp only
    rw [created]
    by_cases fine : status = .ok
    swap
    · cases status <;> first | exact absurd rfl fine | exact .made named found creates
    subst fine
    dsimp only
    rcases openFilePtr_made db b unix.opens named with ⟨filePtr,b',opened⟩ | ⟨filePtr,failed⟩
    · obtain ⟨status,b2,done⟩ := b'.makeHeapFile_returns name unix.flushes
      rw [opened]
      dsimp only
      rw [pool_setPool,ok_bind,done,ok_bind]
      dsimp only
      rw [setPool_setPool]
      exact .made named found creates
    · rw [failed]
      exact .made named found creates

def openCount (db : Db) (name : Name) : Nat := (db.files name).elim 0 Pool.openCnt

-- The open counts and the set of files are as they were, so what could be destroyed still can.
structure NoTrace (db db' : Db) : Prop where
  opens : ∀ name, db'.openCount name = db.openCount name
  files : ∀ name, (db'.files name).isSome = (db.files name).isSome
  destroys : ∀ name, (db.destroyFile name).1 = .ok → (db'.destroyFile name).1 = .ok

-- An error leaves no trace where nothing has been opened or made yet.
theorem createHeapFile_no_trace_iff (db : Db) (unix : Unix) (name : Name) :
    ∃ status db', db.createHeapFileOn unix name = .ok (status,db') ∧
      (status ≠ .ok → (NoTrace db db' ↔ db.Refuses unix name)) := by
  have outcome := createHeapFileOn_spec db unix name
  generalize db.createHeapFileOn unix name = result at outcome
  cases outcome with
  | refused failed why =>
    refine ⟨_,_,rfl,fun _ => iff_of_true ⟨?_,?_,?_⟩ why⟩
    · intro other
      rfl
    · intro other
      rfl
    · intro other fine
      exact fine
  | @opened b named found opens =>
    refine ⟨_,_,rfl,fun _ => iff_of_false ?_ ?_⟩
    · intro none_left
      have count := none_left.opens name
      rw [openCount,openCount,setPool_same,found] at count
      exact absurd count (Nat.succ_ne_self b.openCnt)
    · rintro (empty | ⟨missing,_⟩ | ⟨b',there,closed,fails⟩)
      · exact named empty
      · rw [found] at missing
        cases missing
      · cases Option.some.inj (found.symm.trans there)
        rw [opens closed] at fails
        cases fails
  | made named missing creates =>
    refine ⟨_,_,rfl,fun _ => iff_of_false ?_ ?_⟩
    · intro none_left
      have there := none_left.files name
      rw [setPool_same,missing] at there
      cases there
    · rintro (empty | ⟨_,refused⟩ | ⟨b',there,_⟩)
      · exact named empty
      · rw [creates] at refused
        cases refused
      · rw [missing] at there
        cases there

-- The heap file of R is there already: it can be destroyed before the call, and is open after it.
theorem createHeapFile_leaves_open : ¬ ∀ (db : Db) (unix : Unix) (name : Name) (status : Status) (db' : Db),
    db.createHeapFileOn unix name = .ok (status,db') → status ≠ .ok → NoTrace db db' := by
  intro always
  obtain ⟨shelf,_,r,_,_,stands,_,_,at_r,_⟩ := sampleDb_stands
  obtain ⟨named,_,b,found,_⟩ := stands [82] r at_r
  have answer : sampleDb.createHeapFileOn .working [82] = .ok (.fileExists,sampleDb.setPool [82] b.openFile.2) := by
    have opened : sampleDb.openFilePtr Unix.working.probes [82] .null =
        (.ok,.file [82],sampleDb.setPool [82] b.openFile.2) :=
      openFilePtr_opens named found (fun _ => rfl)
    rw [createHeapFileOn,opened]
    rfl
  have count := (always _ _ _ _ _ answer (by decide)).opens [82]
  rw [openCount,openCount,setPool_same,found] at count
  exact absurd count (Nat.succ_ne_self b.openCnt)

section frame

variable {shelf : Shelf} {file : HeldFile} {b : Pool}

-- Files that nobody has on the shelf do not matter to it.
theorem Stands.beside (stands : db.Stands shelf) (off : shelf name = none) (b : Pool) :
    (db.setPool name b).Stands shelf := by
  intro other held there
  have apart : other ≠ name := by
    rintro rfl
    rw [off] at there
    cases there
  exact (stands other held there).setPool_other b apart

theorem Stands.off_shelf (stands : db.Stands shelf) (missing : db.files name = none) : shelf name = none := by
  cases there : shelf name with
  | none => rfl
  | some file =>
    obtain ⟨_,_,b,found,_⟩ := stands name file there
    rw [missing] at found
    cases found

-- Whatever has a heap file keeps its records.
def Preserves (db' : Db) (shelf : Shelf) : Prop :=
  ∃ shelf', db'.Stands shelf' ∧ ∀ other file, shelf other = some file →
    ∃ file', shelf' other = some file' ∧ records file'.heap = records file.heap

theorem Stands.preserves (stands : db.Stands shelf) : db.Preserves shelf :=
    ⟨shelf,stands,fun _ file there => ⟨file,there,rfl⟩⟩

theorem Stands.createHeapFileOn (stands : db.Stands shelf) (unix : Unix) (name : Name) :
    ∃ status db', db.createHeapFileOn unix name = .ok (status,db') ∧ db'.Preserves shelf := by
  have outcome := createHeapFileOn_spec db unix name
  generalize db.createHeapFileOn unix name = result at outcome
  cases outcome with
  | refused => exact ⟨_,_,rfl,stands.preserves⟩
  | made named missing => exact ⟨_,_,rfl,(stands.beside (stands.off_shelf missing) _).preserves⟩
  | @opened b named found =>
    refine ⟨_,_,rfl,?_⟩
    cases there : shelf name with
    | none => exact (stands.beside there _).preserves
    | some file =>
      obtain ⟨_,owned,b',found',kept,stored⟩ := stands name file there
      cases Option.some.inj (found.symm.trans found')
      obtain ⟨b1,opened,kept1,view⟩ := kept.openFile
      have owned' : file.books.opened.Owned := owned
      have stands' := stands.put (b:=b1) ⟨file.books.opened,file.heap,file.recCnt⟩
        (holds_setPool named owned' kept1 (by rw [view]; exact stored))
      rw [opened]
      refine ⟨_,stands',fun other held at_other => ?_⟩
      have still : ∃ file', (Function.update shelf name (some ⟨file.books.opened,file.heap,file.recCnt⟩) : Shelf)
        other = some file' ∧
          file'.heap = held.heap := find_opened at_other there rfl
      obtain ⟨file',at_file,same⟩ := still
      exact ⟨file',at_file,congrArg records same⟩

theorem Preserves.contents (preserves : db.Preserves shelf) (present : shelf name = some file) :
    db.contents name = .ok ((records file.heap).map Prod.snd) := by
  obtain ⟨shelf',stands,kept⟩ := preserves
  obtain ⟨file',there,same⟩ := kept name file present
  rw [contents_spec stands there,same]

theorem Stands.preserves_put {file' : HeldFile} (stands : db.Stands (Function.update shelf name (some file')))
    (present : shelf name = some file)
    (same : records file'.heap = records file.heap) : db.Preserves shelf := by
  refine ⟨_,stands,fun other held at_other => ?_⟩
  by_cases here : other = name
  · subst here
    rw [present] at at_other
    cases at_other
    exact ⟨file',Function.update_self ..,same⟩
  · exact ⟨held,by rw [Function.update_of_ne here]; exact at_other,rfl⟩

theorem setPool_isSome (found : (db.files name).isSome) (b : Pool) (other : Name) :
    ((db.setPool name b).files other).isSome = (db.files other).isSome := by
  by_cases here : other = name
  · subst here
    rw [setPool_same,found]
    rfl
  · rw [setPool_other b here]

end frame
end Db

namespace RelCatalog

variable {db db' : Db} {shelf shelf' : Shelf} {rc rc' ac : HeldFile} {relation : Name} {attrs : List AttrInfo}

-- Both catalogs have the rows they had, and the directory the same files.
structure Unchanged (db db' : Db) : Prop where
  relCat : db'.contents relCatName = db.contents relCatName
  attrCat : db'.contents attrCatName = db.contents attrCatName
  files : ∀ name, (db'.files name).isSome = (db.files name).isSome

theorem Unchanged.of_preserves (stands : db.Stands shelf) (rels : shelf relCatName = some rc)
    (attr_rows : shelf attrCatName = some ac)
    (preserves : db'.Preserves shelf) (files : ∀ name, (db'.files name).isSome = (db.files name).isSome) :
    Unchanged db db' := by
  refine ⟨?_,?_,files⟩
  · rw [preserves.contents rels,Db.contents_spec stands rels]
  · rw [preserves.contents attr_rows,Db.contents_spec stands attr_rows]

-- The row of a relation does not go away again.
theorem Unchanged.of_gained {row : List UInt8} (stands : db.Stands shelf) (rels : shelf relCatName = some rc)
    (preserves : db'.Preserves shelf')
    (rels' : shelf' relCatName = some rc') (gains : Gains rc.heap rc'.heap [row]) : ¬ Unchanged db db' := by
  intro same
  have rows := same.relCat
  rw [preserves.contents rels',Db.contents_spec stands rels] at rows
  have longer := gains.perm.length_eq
  rw [Except.ok.inj rows] at longer
  simp at longer

-- One row after the other, none of them in any other file.
theorem addAttributes_beside (relation : Name) (attrs : List AttrInfo) (offset : Int) (stands : db.Stands shelf)
    (attr_rows : shelf attrCatName = some ac) :
    ∃ status db' shelf', addAttributes relation attrs offset db = .ok (status,db') ∧ db'.Stands shelf' ∧
      Beside attrCatName db shelf db' shelf' := by
  induction attrs generalizing db shelf ac offset with
  | nil => exact ⟨.ok,db,shelf,rfl,stands,Beside.refl _ _ _⟩
  | cons attr rest ih =>
    rw [addAttributes]
    by_cases long : attr.attrName.length ≥ maxName
    · rw [if_pos long]
      exact ⟨.nameTooLong,db,shelf,rfl,stands,Beside.refl _ _ _⟩
    rw [if_neg long]
    have length := AttrDesc.length_bytes ⟨relation,attr.attrName,offset,attr.attrType,attr.attrLen⟩
    have filled := AttrDesc.bytes_ne_nil ⟨relation,attr.attrName,offset,attr.attrType,attr.attrLen⟩
    obtain ⟨status,b,ac',added,stands',_⟩ := stands.addRow_fill attr_rows filled (by rw [length]; decide)
    have aside := Beside.put attrCatName db shelf b (some ac')
    rw [AttrCatalog.addInfo,added,ok_bind]
    dsimp only
    by_cases fine : status = .ok
    · rw [if_neg (not_not_intro fine)]
      obtain ⟨status2,db2,shelf2,done,stands2,aside2⟩ := ih (offset + attr.attrLen) stands' (Function.update_self ..)
      exact ⟨status2,db2,shelf2,done,stands2,aside.trans aside2⟩
    · rw [if_pos fine]
      exact ⟨status,_,_,rfl,stands',aside⟩

-- A check fails, or relcat has no room for the first row.
def RefusedAtOnce (db : Db) (rc : Heap) (relation : Name) (attrs : List AttrInfo) : Prop :=
  (relation = [] ∨ attrs.length < 1) ∨ relation.length ≥ maxName ∨
    rows rc relation ≠ [] ∨ ¬ (attrs.map AttrInfo.attrName).Nodup ∨
    tupleWidth attrs > pageSize ∨ ¬ db.Takes relCatName rc RelDesc.size

-- What createRel does once its checks have passed changes relcat, unless its first row is refused.
theorem enter_outcome (unix : Unix) (stands : db.Stands shelf) (rels : shelf relCatName = some rc)
    (attr_rows : shelf attrCatName = some ac)
    (relation : Name) (attrs : List AttrInfo) :
    ∃ status db', (do
        let (status,db) ← addInfo db ⟨relation,attrs.length⟩
        if status ≠ .ok then return (status,db)
        let (status,db) ← addAttributes relation attrs 0 db
        if status ≠ .ok then return (status,db)
        db.createHeapFileOn unix relation : Except Abort (Status × Db)) = .ok (status,db') ∧
      (db.Takes relCatName rc.heap RelDesc.size ∧ (∃ shelf' rc' row, db'.Preserves shelf' ∧ shelf' relCatName =
        some rc' ∧ Gains rc.heap rc'.heap [row]) ∨
        ¬ db.Takes relCatName rc.heap RelDesc.size ∧ status ≠ .ok ∧ db'.Preserves shelf ∧
          ∀ name, (db'.files name).isSome = (db.files name).isSome) := by
  have length := RelDesc.length_bytes ⟨relation,attrs.length⟩
  have filled := RelDesc.bytes_ne_nil ⟨relation,attrs.length⟩
  obtain ⟨status1,b1,rc',added,stands1,told⟩ := stands.addRow_fill rels filled (by rw [length]; decide)
  rw [length] at told
  rw [addInfo,added,ok_bind]
  dsimp only
  cases told with
  | refused failed full same =>
    rw [if_pos failed]
    refine ⟨status1,_,rfl,.inr ⟨full,failed,stands1.preserves_put rels same,?_⟩⟩
    obtain ⟨_,_,b0,found,_⟩ := stands relCatName rc rels
    apply Db.setPool_isSome
    rw [found]
    rfl
  | gained fits gains =>
    rw [if_neg (not_not_intro rfl)]
    have at_attr : Function.update shelf relCatName (some rc') attrCatName = some ac := by
      rw [Function.update_of_ne (by decide)]
      exact attr_rows
    obtain ⟨status2,db2,shelf2,done,stands2,beside⟩ := addAttributes_beside relation attrs 0 stands1 at_attr
    have rels2 : shelf2 relCatName = some rc' := by
      rw [(beside relCatName (by decide)).2]
      exact Function.update_self ..
    rw [done,ok_bind]
    dsimp only
    by_cases fine : status2 = .ok
    · rw [if_neg (not_not_intro fine)]
      obtain ⟨status3,db3,made,preserves⟩ := stands2.createHeapFileOn unix relation
      refine ⟨status3,db3,made,.inl ⟨fits,?_⟩⟩
      obtain ⟨shelf3,stands3,kept⟩ := preserves
      obtain ⟨rc3,rels3,same⟩ := kept relCatName rc' rels2
      refine ⟨shelf2,rc',_,⟨shelf3,stands3,kept⟩,rels2,gains⟩
    · rw [if_pos fine]
      exact ⟨status2,db2,rfl,.inl ⟨fits,shelf2,rc',_,stands2.preserves,rels2,gains⟩⟩

theorem createRel_atomic_iff (unix : Unix) (db : Db) (shelf : Shelf) (rc ac : HeldFile) (stands : db.Stands shelf)
    (rels : shelf relCatName = some rc) (attr_rows : shelf attrCatName = some ac) (wide : Rows rc.heap RelDesc.size)
    (relation : Name)
    (clean : 0 ∉ relation) (attrs : List AttrInfo) :
    ∃ status db', createRelOn db unix relation attrs = .ok (status,db') ∧
      (status ≠ .ok → (Unchanged db db' ↔ RefusedAtOnce db rc.heap relation attrs)) := by
  have same : Unchanged db db := ⟨rfl,rfl,fun _ => rfl⟩
  rw [createRelOn]
  by_cases parm : relation = [] ∨ attrs.length < 1
  · rw [if_pos parm]
    exact ⟨_,db,rfl,fun _ => iff_of_true same (.inl parm)⟩
  rw [if_neg parm]
  by_cases long : relation.length ≥ maxName
  · rw [if_pos long]
    exact ⟨_,db,rfl,fun _ => iff_of_true same (.inr (.inl long))⟩
  rw [if_neg long]
  have holds := stands relCatName rc rels
  obtain ⟨b0,found,kept0,_⟩ := holds.2.2
  obtain ⟨b,asked,holds1,view⟩ := getInfo_view holds found wide clean (not_or.mp parm).1 ⟨[],0⟩
  have stands1 : (db.setPool relCatName b).Stands shelf := stands.same rels holds1
  have files1 : ∀ name, ((db.setPool relCatName b).files name).isSome = (db.files name).isSome := by
    apply Db.setPool_isSome
    rw [found]
    rfl
  have same1 : Unchanged db (db.setPool relCatName b) := .of_preserves stands rels attr_rows stands1.preserves files1
  rw [asked,ok_bind]
  dsimp only
  by_cases listed : rows rc.heap relation = []
  swap
  · rw [if_neg listed,if_pos rfl]
    exact ⟨_,_,rfl,fun _ => iff_of_true same1 (.inr (.inr (.inl listed)))⟩
  rw [if_pos listed,if_neg Status.noConfusion,if_neg (not_not_intro rfl)]
  by_cases nodup : (attrs.map AttrInfo.attrName).Nodup
  swap
  · rw [if_pos nodup]
    exact ⟨_,_,rfl,fun _ => iff_of_true same1 (.inr (.inr (.inr (.inl nodup))))⟩
  rw [if_neg (not_not_intro nodup)]
  by_cases broad : tupleWidth attrs > pageSize
  · rw [if_pos broad]
    exact ⟨_,_,rfl,fun _ => iff_of_true same1 (.inr (.inr (.inr (.inr (.inl broad)))))⟩
  rw [if_neg broad]
  obtain ⟨_,_,b1,found1,kept1,_⟩ := holds1
  rw [Db.setPool_same] at found1
  cases found1
  have takes : (db.setPool relCatName b).Takes relCatName rc.heap RelDesc.size ↔
      db.Takes relCatName rc.heap RelDesc.size := by
    rw [Db.Takes.iff (Db.setPool_same ..) rfl,Db.Takes.iff found (kept0.length_of_view kept1 view)]
  obtain ⟨status,db',done,told⟩ := enter_outcome unix stands1 rels attr_rows relation attrs
  rw [takes] at told
  refine ⟨status,db',done,fun _ => ?_⟩
  rcases told with ⟨fits,shelf',rc',row,preserves,rels',gains⟩ | ⟨full,_,preserves,files⟩
  · apply iff_of_false (Unchanged.of_gained stands rels preserves rels' gains)
    rintro (bad | bad | bad | bad | bad | full)
    · exact parm bad
    · exact long bad
    · exact bad listed
    · exact bad nodup
    · exact broad bad
    · exact full fits
  · apply iff_of_true
    · exact .of_preserves stands rels attr_rows preserves fun name => (files name).trans (files1 name)
    · exact .inr (.inr (.inr (.inr (.inr full))))

theorem bareCatalogs_stand : ∃ shelf rc ac, bareCatalogs.Stands shelf ∧ shelf relCatName = some rc ∧
    shelf attrCatName = some ac ∧
    Rows rc.heap RelDesc.size := by
  have loads : Db.Loads (fun _ _ => ByteMemory.zero 1024) [(relCatName,[]),(attrCatName,[])] := by decide +kernel
  obtain ⟨shelf,stands,listed⟩ := @Db.holding_stands _ ⟨HeapFile.fresh 0 0,none,0,nullRid⟩ _ loads
  obtain ⟨rc,rels,none_listed⟩ := listed relCatName [] rfl
  obtain ⟨ac,attr_rows,_⟩ := listed attrCatName [] rfl
  exact ⟨shelf,rc,ac,stands,rels,attr_rows,rows_of_bytes none_listed (by simp)⟩

theorem createRel_atomic_iff_duplicate : ∃ status db',
    createRelOn bareCatalogs .working [82] [⟨[],[97],1,4,none⟩,⟨[],[97],1,4,none⟩] = .ok (status,db') ∧
      (status ≠ .ok → Unchanged bareCatalogs db') := by
  obtain ⟨shelf,rc,ac,stands,rels,attr_rows,wide⟩ := bareCatalogs_stand
  obtain ⟨status,db',ran,told⟩ := createRel_atomic_iff .working bareCatalogs shelf rc ac stands rels attr_rows wide
    [82] (by decide)
    [⟨[],[97],1,4,none⟩,⟨[],[97],1,4,none⟩]
  refine ⟨status,db',ran,fun failed => (told failed).mpr ?_⟩
  exact .inr (.inr (.inr (.inl (by decide))))

-- The second attribute has a name of 32 characters; R stays in relcat.
theorem long_name_leaves_row : ¬ ∀ (db : Db) (unix : Unix) (relation : Name) (attrs : List AttrInfo)
    (status : Status) (db' : Db),
    createRelOn db unix relation attrs = .ok (status,db') → status ≠ .ok → Unchanged db db' := by
  intro always
  have made : ∃ db', createRelOn bareCatalogs .working [82] [⟨[],[97],1,4,none⟩,⟨[],List.replicate 32 98,1,4,none⟩] =
    .ok (.nameTooLong,db') ∧
      db'.contents relCatName = .ok [RelDesc.bytes ⟨[82],2⟩] := Db.exists_ok_contents (by decide +kernel)
  obtain ⟨db',ran,left⟩ := made
  have before : (bareCatalogs.contents relCatName).toOption = some [] := by decide +kernel
  have same := (always _ _ _ _ _ _ ran (by decide)).relCat
  rw [left] at same
  rw [← same] at before
  cases before

end RelCatalog
end Minirel
