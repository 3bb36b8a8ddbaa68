import Minirel.ThetaJoin

namespace Minirel
open ByteMemory SlotDirectory Page Heap

-- memcmp looks at every byte, also behind a NUL.
def memcmp : Nat → List UInt8 → List UInt8 → Int
  | 0,_,_ => 0
  | n+1,one,two =>
    let x := one.headD 0
    let y := two.headD 0
    if x ≠ y then (x.toNat : Int) - y.toNat else memcmp n one.tail two.tail

-- The sign of diff, which is none when diff is no number.
def reccmp (p1 p2 : List UInt8) (p1Len p2Len : Int) (type : Datatype) : Option Ordering :=
  match type with
  | .integer => Datatype.difference .integer 4 p1 p2
  | .float => Datatype.difference .float 4 p1 p2
  | .string => some (compare (memcmp (min p1Len p2Len).toNat p1 p2) 0)

-- SORTREC
structure SortRec where
  rid : RID
  field : List UInt8
  length : Int
  deriving DecidableEq,Repr

-- RUN, whose outFile is not used after generateRun and whose mark belongs to setMark.
structure Run where
  name : Name
  inFile : HeapFileScan
  valid : Bool
  record : Record
  rid : RID

structure SortedFile where
  runs : List Run
  fileName : Name
  type : Datatype
  offset : Int
  length : Int
  maxItems : Int

-- qsort(3) leaves open how it orders what its comparison finds equal.
abbrev Qsort := (SortRec → SortRec → Option Ordering) → List SortRec → List SortRec

namespace SortedFile

def compareRecs (type : Datatype) (one two : SortRec) : Option Ordering :=
    reccmp one.field two.field one.length two.length type

-- The sort attribute in a record. What lies around a record belongs to others.
def sortField (sf : SortedFile) (rec : Record) : Except Abort (List UInt8) :=
  if sf.offset + sf.length ≤ rec.length then .ok ((rec.data.drop sf.offset.toNat).take sf.length.toNat) else .error
    .undefined

-- for(numItems = 0; numItems < maxItems; numItems++): what is left of the source file or as much as
-- the buffer takes. Any error but the end of the file is returned.
def fillBuffer (sf : SortedFile) : Nat → Db → HeapFileScan →
    Except Abort (Except Status (List SortRec) × HeapFileScan × Db)
  | 0,db,hfs => return (.ok [],hfs,db)
  | items+1,db,hfs => do
    let (next,hfs,db) ← db.scanNext sf.fileName hfs
    match next with
    | .error status => return (if status = .fileEof then .ok [] else .error status,hfs,db)
    | .ok rid =>
      match ← db.getRecord sf.fileName hfs with
      | .error status => return (.error status,hfs,db)
      | .ok rec =>
        let field ← sf.sortField rec
        let (rest,hfs,db) ← fillBuffer sf items db hfs
        return (rest.map (⟨rid,field,sf.length⟩::·),hfs,db)

-- Fetches the whole records and puts them into the temporary file.
def writeRun (fileName runName : Name) : List SortRec → Db → HeapFile → InsertFileScan →
    Except Abort (Status × HeapFile × InsertFileScan × Db)
  | [],db,hfile,outFile => return (.ok,hfile,outFile,db)
  | rec::buffer,db,hfile,outFile => do
    let (record,hfile,db) ← db.getRecordAt fileName hfile rec.rid
    match record with
    | .error status => return (status,hfile,outFile,db)
    | .ok record =>
      let (inserted,outFile,db) ← db.insertRecord runName outFile record
      match inserted with
      | .error status => return (status,hfile,outFile,db)
      | .ok _ => writeRun fileName runName buffer db hfile outFile

-- fileName << ".sort." << runs.size(); Unix does not see the NUL that ends puts behind it.
def runName (fileName : Name) (number : Nat) : Name :=
  fileName ++ [46,115,111,114,116,46] ++ (Nat.toDigits 10 number).map fun digit => UInt8.ofNat digit.toNat

def generateRun (qsort : Qsort) (sf : SortedFile) (buffer : List SortRec) (db : Db) :
    Except Abort (Status × SortedFile × Db) := do
  let buffer := qsort (compareRecs sf.type) buffer
  let name := runName sf.fileName (sf.runs.length + 1)
  let sf := {sf with runs := sf.runs ++ [⟨name,db.raw,false,⟨[],0⟩,nullRid⟩]}
  let (status,db) := db.createFile name
  if status ≠ .ok then return (status,sf,db)
  let (status,db) := db.destroyFile name
  if status ≠ .ok then return (status,sf,db)
  let (status,outFile,db) ← db.newInsertFileScan name
  if status ≠ .ok then return (status,sf,db)
  let (status,hfile,db) ← db.newHeapFile sf.fileName
  if status ≠ .ok then return (status,sf,db)
  let (status,hfile,outFile,db) ← writeRun sf.fileName name buffer db hfile outFile
  if status ≠ .ok then return (status,sf,db)
  let db ← db.deleteInsertFileScan name outFile
  return (.ok,sf,← db.deleteHeapFile sf.fileName hfile)

-- do ... while (numItems > 0)
def sortLoop (qsort : Qsort) : Nat → SortedFile → Db → HeapFileScan →
    Except Abort (Status × SortedFile × HeapFileScan × Db)
  | 0,_,_,_ => throw .diverges
  | turns+1,sf,db,hfs => do
    let (filled,hfs,db) ← fillBuffer sf sf.maxItems.toNat db hfs
    match filled with
    | .error status => return (status,sf,hfs,db)
    | .ok [] => return (.ok,sf,hfs,db)
    | .ok buffer =>
      let (status,sf,db) ← generateRun qsort sf buffer db
      if status ≠ .ok then return (status,sf,hfs,db)
      sortLoop qsort turns sf db hfs

def startScans : List Run → Db → Except Abort (Status × List Run × Db)
  | [],db => return (.ok,[],db)
  | run::runs,db => do
    let (status,inFile,db) ← db.newHeapFileScan run.name
    if status ≠ .ok then return (status,{run with inFile := inFile}::runs,db)
    let (status,inFile) := inFile.startScan 0 0 (some .string) none .eq
    if status ≠ .ok then return (status,{run with inFile := inFile}::runs,db)
    let (status,runs,db) ← startScans runs db
    return (status,{run with inFile := inFile, valid := false, rid := nullRid}::runs,db)

def sortFile (qsort : Qsort) (sf : SortedFile) (db : Db) : Except Abort (Status × SortedFile × Db) := do
  let (status,hfs,db) ← db.newHeapFileScan sf.fileName
  if status ≠ .ok then return (status,sf,db)
  let (status,hfs) := hfs.startScan 0 0 (some .string) none .eq
  if status ≠ .ok then return (status,sf,db)
  let (status,sf,hfs,db) ← sortLoop qsort (db.turns sf.fileName) sf db hfs
  if status ≠ .ok then return (status,sf,db)
  let db ← db.deleteHeapFileScan sf.fileName hfs
  let (status,runs,db) ← startScans sf.runs db
  return (status,{sf with runs := runs},db)

-- The parameters are checked first; type is none for a code that no Datatype has.
def construct (qsort : Qsort) (db : Db) (fileName : Name) (offset len : Int) (type : Option Datatype) (maxItems : Int) :
    Except Abort (Status × Option SortedFile × Db) := do
  if offset < 0 ∨ len < 1 then return (.badSortParm,none,db)
  let some type := type | return (.badSortParm,none,db)
  if type = .integer ∧ len ≠ 4 ∨ type = .float ∧ len ≠ 4 then return (.badSortParm,none,db)
  if maxItems < 2 then return (.insufMem,none,db)
  let (status,sf,db) ← sortFile qsort ⟨[],fileName,type,offset,len,maxItems⟩ db
  return (status,some sf,db)

-- Makes sure that a run has its next record in memory, or is marked as ended by its page number.
def fetch (run : Run) (db : Db) : Except Abort (Status × Run × Db) := do
  if run.valid then return (.ok,run,db)
  let (next,inFile,db) ← db.scanNext run.name run.inFile
  let run := {run with inFile := inFile}
  match next with
  | .error .fileEof => return (.ok,{run with rid := {run.rid with pageNo := -1}, valid := true},db)
  | .error status => return (status,run,db)
  | .ok rid =>
    match ← db.getRecord run.name inFile with
    | .error status => return (status,{run with rid := rid},db)
    | .ok rec => return (.ok,{run with rid := rid, record := rec, valid := true},db)

-- The loop over the runs, with the number and the record of the smallest so far.
def findSmallest (sf : SortedFile) : List Run → Nat → Option (Nat × Record) → Db →
    Except Abort (Status × List Run × Option (Nat × Record) × Db)
  | [],_,smallest,db => return (.ok,[],smallest,db)
  | run::runs,i,smallest,db => do
    let (status,run,db) ← fetch run db
    if status ≠ .ok then return (status,run::runs,smallest,db)
    let smallest ←
      if run.rid.pageNo < 0 then pure smallest
      else match smallest with
        | none => pure (some (i,run.record))
        | some (j,rec) => do
          let one ← sf.sortField rec
          let two ← sf.sortField run.record
          pure (if reccmp one two sf.length sf.length sf.type = some .gt then some (i,run.record) else some (j,rec))
    let (status,runs,smallest,db) ← findSmallest sf runs (i + 1) smallest db
    return (status,run::runs,smallest,db)

def next (sf : SortedFile) (db : Db) : Except Abort (Except Status Record × SortedFile × Db) := do
  if sf.runs = [] then return (.error .fileEof,sf,db)
  let (status,runs,smallest,db) ← findSmallest sf sf.runs 0 none db
  let sf := {sf with runs := runs}
  if status ≠ .ok then return (.error status,sf,db)
  match smallest with
  | none => return (.error .fileEof,sf,db)
  | some (i,rec) => return (.ok rec,{sf with runs := sf.runs.modify i fun run => {run with valid := false}},db)

variable {db : Db} {sf : SortedFile} {b : Pool} {k : Pool.Books} {recCnt : Int} {shelf : Shelf} {file : HeldFile}

-- What the buffer holds of a record.
def sortRec (sf : SortedFile) (e : Entry) : SortRec := ⟨e.1,(e.2.drop sf.offset.toNat).take sf.length.toNat,sf.length⟩

theorem fillBuffer_spec (db : Db) (sf : SortedFile) (items : Nat) {s : HeapFileScan} {c : Cursor} (owned : k.Owned)
    (scanning : HeapFileScan.Scanning k recCnt b s c) (clear : s.filter = none)
    (inside : ∀ e ∈ c.remaining, sf.offset + sf.length ≤ e.2.length) :
    ∃ s' b' c', fillBuffer sf items (db.setPool sf.fileName b) s =
        .ok (.ok ((c.remaining.take items).map sf.sortRec),s',db.setPool sf.fileName b') ∧
      HeapFileScan.Moves k recCnt b s c b' s' c' ∧ s'.filter = none ∧ c'.remaining = c.remaining.drop items := by
  induction items generalizing b s c with
  | zero => exact ⟨s,b,c,rfl,scanning.still,clear,rfl⟩
  | succ items ih =>
    obtain ⟨b1,s1,c1,moves,clear1,found⟩ := HeapFileScan.scanNext_all owned scanning clear
    rcases found with ⟨eof,nothing,done⟩ | ⟨bytes,found,read,remaining⟩
    · refine ⟨s1,b1,c1,?_,moves,clear1,by rw [done,nothing]; rfl⟩
      rw [fillBuffer,Db.scanNext_at eof,ok_bind,nothing]
      rfl
    · rw [remaining] at inside
      obtain ⟨s2,b2,c2,filled,moves2,clear2,left⟩ := ih moves.scanning clear1 fun e member =>
        inside e (List.mem_cons_of_mem _ member)
      refine ⟨s2,b2,c2,?_,moves.trans moves2,clear2,?_⟩
      · have field : sf.sortField (.of bytes) = .ok ((bytes.drop sf.offset.toNat).take sf.length.toNat) :=
          if_pos (inside _ (List.mem_cons_self ..))
        rw [fillBuffer,Db.scanNext_at found,ok_bind]
        dsimp only
        rw [Db.getRecord_at,read,ok_bind]
        dsimp only
        rw [field,ok_bind,filled,remaining]
        rfl
      · rw [left,remaining]
        rfl

theorem newInsertFileScan_missing {name : Name} {status : Status} {rel : InsertFileScan} {db' : Db} (named : name ≠ [])
    (missing : db.files name = none) (made : db.newInsertFileScan name = .ok (status,rel,db')) : status ≠ .ok := by
  have unopened : db.openFile name = (.unixErr,db) := by rw [Db.openFile,if_neg named,missing]
  rw [Db.newInsertFileScan,unopened] at made
  dsimp only at made
  split at made
  · cases made
    decide
  · cases made

theorem made_and_destroyed (db : Db) {name : Name} (named : name ≠ []) (missing : db.files name = none) :
    ∃ db1 db2, db.createFile name = (.ok,db1) ∧ db1.destroyFile name = (.ok,db2) ∧ db2.files name = none := by
  let made := db.setPool name ⟨File.create,fun _ => none,0,db.stale name,[]⟩
  refine ⟨made,{made with files := Function.update made.files name none},?_,?_,Function.update_self ..⟩
  · rw [Db.createFile,if_neg named,missing]
  · rw [Db.destroyFile,if_neg named,Db.setPool_same]
    rfl

-- The file that was made and destroyed again is not there for the run to be written to.
theorem generateRun_fails (qsort : Qsort) (sf : SortedFile) (buffer : List SortRec) (db : Db) {status : Status}
    {sf' : SortedFile} {db' : Db}
    (ran : generateRun qsort sf buffer db = .ok (status,sf',db')) : status ≠ .ok := by
  have named : runName sf.fileName (sf.runs.length + 1) ≠ [] := by simp [runName]
  unfold generateRun at ran
  dsimp only at ran
  generalize runName sf.fileName (sf.runs.length + 1) = name at ran named
  cases there : db.files name with
  | some b =>
    have refused : db.createFile name = (.fileExists,db) := by rw [Db.createFile,if_neg named,there]
    rw [refused] at ran
    cases ran
    intro same
    cases same
  | none =>
    obtain ⟨db1,db2,made,destroyed,missing⟩ := made_and_destroyed db named there
    rw [made] at ran
    dsimp only at ran
    rw [if_neg (not_not_intro rfl),destroyed] at ran
    dsimp only at ran
    rw [if_neg (not_not_intro rfl)] at ran
    obtain ⟨⟨opened,outFile,db3⟩,opening,ran⟩ := of_bind_ok ran
    have failed := newInsertFileScan_missing named missing opening
    dsimp only at ran
    rw [if_pos failed] at ran
    cases ran
    exact failed

-- What is asked of the constructor and of next: the records in ascending order, each once, and
-- then the end.
def Ascends (type : Datatype) (length : Int) (x y : List UInt8) : Prop :=
  match type with
  | .integer => decode (bytesAt x 4) ≤ decode (bytesAt y 4)
  | .float => (FloatValue.ofBits (unsigned (bytesAt x 4))).order (.ofBits (unsigned (bytesAt y 4))) ≠ some .gt
  | .string => memcmp length.toNat x y ≤ 0

def Delivers : SortedFile → Db → List (List UInt8) → Prop
  | sf,db,[] => ∃ sf' db', sf.next db = .ok (.error .fileEof,sf',db')
  | sf,db,bytes::rest => ∃ sf' db', sf.next db = .ok (.ok (.of bytes),sf',db') ∧ Delivers sf' db' rest

def Sorts (qsort : Qsort) (db : Db) (fileName : Name) (offset len : Int) (type : Datatype) (maxItems : Int)
    (recs : List (List UInt8)) : Prop :=
  ∃ sf db' out, construct qsort db fileName offset len (some type) maxItems = .ok (.ok,some sf,db') ∧
    Delivers sf db' out ∧
    out.Perm recs ∧ out.Pairwise fun x y => Ascends type len (x.drop offset.toNat) (y.drop offset.toNat)

theorem sortFile_spec (sf : SortedFile) (qsort : Qsort) (stands : db.Stands shelf)
    (present : shelf sf.fileName = some file) (fresh : sf.runs = [])
    (several : 2 ≤ sf.maxItems) (inside : ∀ e ∈ records file.heap, sf.offset + sf.length ≤ e.2.length) :
    (records file.heap = [] → ∃ db', sortFile qsort sf db = .ok (.ok,sf,db')) ∧
    (records file.heap ≠ [] → ∀ status sf' db', sortFile qsort sf db = .ok (status,sf',db') → status ≠ .ok) := by
  have owned : file.books.opened.Owned := (stands sf.fileName file present).2.1
  obtain ⟨b,s,c,made,scanning,_,all,clear⟩ := Db.newHeapFileScan_spec (stands sf.fileName file present)
  have started : s.startScan 0 0 (some .string) none .eq = (.ok,s) := by rw [HeapFileScan.startScan,← clear]
  obtain ⟨s1,b1,c1,filled,moves,_,_⟩ := fillBuffer_spec db sf sf.maxItems.toNat owned scanning clear
    (by rw [all]; exact inside)
  obtain ⟨turns,turns_eq⟩ : ∃ turns, (db.setPool sf.fileName b).turns sf.fileName = turns + 1 := by
    have enough := scanning.turns.2
    rw [Db.turns,Db.setPool_same]
    exact Nat.exists_eq_succ_of_ne_zero (Nat.ne_of_gt (Nat.lt_of_le_of_lt (Nat.zero_le _) enough))
  have begun : sortFile qsort sf db = (do
      let (status,sf,hfs,db) ← sortLoop qsort (turns + 1) sf (db.setPool sf.fileName b) s
      if status ≠ .ok then return (status,sf,db)
      let db ← db.deleteHeapFileScan sf.fileName hfs
      let (status,runs,db) ← startScans sf.runs db
      return (status,{sf with runs := runs},db)) := by
    rw [sortFile,made,ok_bind]
    dsimp only
    rw [if_neg (not_not_intro rfl),started]
    dsimp only
    rw [if_neg (not_not_intro rfl),turns_eq]
  rw [begun,sortLoop,filled,ok_bind,all]
  constructor
  · intro nothing
    obtain ⟨b2,deleted,_⟩ := db.delete_spec sf.fileName (stands sf.fileName file present).2.1 moves.scanning
    refine ⟨db.setPool sf.fileName b2,?_⟩
    have same : {sf with runs := []} = sf := by rw [← fresh]
    rw [nothing,List.take_nil,List.map_nil]
    dsimp only
    rw [pure_ok,ok_bind]
    dsimp only
    rw [if_neg (not_not_intro rfl),deleted,ok_bind,fresh,startScans,pure_ok,ok_bind]
    dsimp only
    rw [same,pure_ok]
  · intro some_record status sf' db' ran
    obtain ⟨e,rest,split⟩ := List.exists_cons_of_ne_nil some_record
    obtain ⟨items,items_eq⟩ : ∃ items, sf.maxItems.toNat = items + 1 := Nat.exists_eq_succ_of_ne_zero (by omega)
    rw [split,items_eq,List.take_succ_cons,List.map_cons] at ran
    dsimp only at ran
    obtain ⟨⟨status1,sf1,s2,db1⟩,looped,ran⟩ := of_bind_ok ran
    obtain ⟨⟨status2,sf2,db2⟩,generated,looped⟩ := of_bind_ok looped
    have failed := generateRun_fails qsort sf _ _ generated
    dsimp only at looped
    rw [if_pos failed] at looped
    cases looped
    dsimp only at ran
    rw [if_pos failed] at ran
    cases ran
    exact failed

theorem construct_accepted (qsort : Qsort) (db : Db) (fileName : Name) {offset len : Int} {type : Datatype}
    {maxItems : Int} (low : 0 ≤ offset)
    (long : 1 ≤ len) (typed : type = .string ∨ len = 4) (several : 2 ≤ maxItems) :
    construct qsort db fileName offset len (some type) maxItems = (do
      let (status,sf,db) ← sortFile qsort ⟨[],fileName,type,offset,len,maxItems⟩ db
      return (status,some sf,db)) := by
  have sound : ¬ (type = .integer ∧ len ≠ 4 ∨ type = .float ∧ len ≠ 4) := by
    rcases typed with rfl | rfl <;> simp
  rw [construct,if_neg (by omega)]
  dsimp only
  rw [if_neg sound,if_neg (by omega)]

-- With working disk and enough frames, a SortedFile can be made of a file that has no records, and
-- of no other.
theorem sorted_file_iff (qsort : Qsort) (db : Db) (shelf : Shelf) (stands : db.Stands shelf) (fileName : Name)
    (file : HeldFile)
    (present : shelf fileName = some file) (offset len : Int) (type : Datatype) (maxItems : Int) (low : 0 ≤ offset)
    (long : 1 ≤ len)
    (typed : type = .string ∨ len = 4) (several : 2 ≤ maxItems) (inside : ∀ e ∈ records file.heap, offset + len ≤
      e.2.length) :
    Sorts qsort db fileName offset len type maxItems ((records file.heap).map Prod.snd) ↔ records file.heap = [] := by
  let sf : SortedFile := ⟨[],fileName,type,offset,len,maxItems⟩
  obtain ⟨empty,filled⟩ := sortFile_spec sf qsort stands present rfl several inside
  rw [Sorts,construct_accepted qsort db fileName low long typed several]
  constructor
  · rintro ⟨sf',db',out,made,_⟩
    apply Classical.byContradiction
    intro some_record
    obtain ⟨⟨status,sf1,db1⟩,ran,made⟩ := of_bind_ok made
    cases made
    exact filled some_record _ _ _ ran rfl
  · intro nothing
    obtain ⟨db',ran⟩ := empty nothing
    refine ⟨sf,db',[],?_,⟨sf,db',rfl⟩,by rw [nothing]; rfl,.nil⟩
    rw [ran]
    rfl

theorem sorted_file_iff_sample : ∃ shelf file, sampleDb.Stands shelf ∧ shelf [84] = some file ∧ records file.heap = [] ∧
    Sorts (fun _ recs => recs) sampleDb [84] 0 4 .integer 2 [] := by
  obtain ⟨shelf,cat,_,_,file,stands,_,_,_,_,present,_,_,recs,_⟩ := sampleDb_stands
  have nothing : records file.heap = [] := List.map_eq_nil_iff.mp recs
  have sorts := (sorted_file_iff (fun _ recs => recs) sampleDb shelf stands [84] file present 0 4 .integer 2
    (by decide) (by decide)
    (.inr rfl) (by decide) (by rw [nothing]; exact fun e member => nomatch member)).mpr nothing
  rw [recs] at sorts
  exact ⟨shelf,file,stands,present,nothing,sorts⟩

def sortDb : Db := {sampleDb with raw := ⟨⟨none,0,false,none,0,false,nullRid⟩,none,0,nullRid⟩}

-- The relation S has the records 1 and 3.
theorem two_records_unsorted : ∃ shelf file, sortDb.Stands shelf ∧ shelf [83] = some file ∧
    (records file.heap).map Prod.snd = [[1,0,0,0],[3,0,0,0]] ∧
    (construct (fun _ recs => recs) sortDb [83] 0 4 (some .integer) 2).toOption.map Prod.fst = some .unixErr ∧
    ¬ Sorts (fun _ recs => recs) sortDb [83] 0 4 .integer 2 [[1,0,0,0],[3,0,0,0]] := by
  obtain ⟨shelf,cat,_,file,_,stands,_,_,_,present,_,_,recs,_⟩ := sampleDb_stands
  have failed : (construct (fun _ recs => recs) sortDb [83] 0 4 (some .integer) 2).toOption.map Prod.fst =
      some .unixErr := by
    decide +kernel
  refine ⟨shelf,file,stands,present,recs,failed,?_⟩
  rintro ⟨sf,db',out,made,_⟩
  rw [made] at failed
  cases failed

end SortedFile
end Minirel
