import Minirel.CatalogRows
import Minirel.Literals

namespace Minirel
open ByteMemory SlotDirectory Page Heap

-- The loop of QU_Delete. Only an error of deleteRecord is returned, with the scan left open.
def deleteLoop (relation : Name) : Nat → Db → HeapFileScan → Except Abort (Status × HeapFileScan × Db)
  | 0,_,_ => throw .diverges
  | turns+1,db,hfs => do
    let (result,hfs,db) ← db.scanNext relation hfs
    match result with
    | .error _ => return (.ok,hfs,db)
    | .ok _ =>
      let (status,hfs,db) ← db.deleteRecord relation hfs
      if status ≠ .ok then return (status,hfs,db)
      deleteLoop relation turns db hfs

-- attrDesc is what the local of that name holds before getInfo, whose status nobody looks at.
def QU_Delete (atof : List UInt8 → List UInt8) (db : Db) (relation attrName : Name) (op : Operator) (type : Datatype)
    (attrValue : List UInt8) (attrDesc : AttrDesc) : Except Abort (Status × Db) := do
  let (status,hfs,db) ← db.newHeapFileScan relation
  if status ≠ .ok then return (status,db)
  let (_,attrDesc,db) ← AttrCatalog.getInfo db relation attrName attrDesc
  let (status,hfs) :=
    if attrName = [] then hfs.startScan 0 0 (some .string) none .eq
    else hfs.startScan attrDesc.attrOffset attrDesc.attrLen (some type) (some (searchValue atof type attrValue)) op
  if status ≠ .ok then return (status,← db.deleteHeapFileScan relation hfs)
  let (status,hfs,db) ← deleteLoop relation (db.turns relation) db hfs
  if status ≠ .ok then return (status,db)
  let (_,hfs,db) ← db.endScan relation hfs
  return (.ok,← db.deleteHeapFileScan relation hfs)

variable {db : Db} {relation : Name} {b : Pool} {k : Pool.Books} {recCnt : Int}

-- Every record that matches and is still ahead goes, and no other.
theorem deleteLoop_spec (db : Db) (relation : Name) {s : HeapFileScan} {c : Cursor} (turns : Nat) (owned : k.Owned)
    (scanning : HeapFileScan.Scanning k recCnt b s c) (enough : c.remaining.length < turns) :
    ∃ s' b' c' recCnt', deleteLoop relation turns (db.setPool relation b) s = .ok (.ok,s',db.setPool relation b') ∧
      HeapFileScan.Scanning k recCnt' b' s' c' ∧ records c'.heap =
        (records c.heap).filter fun e => e.1 ∉ (c.remaining.filter fun e => s.matchRec (.of e.2)).map Prod.fst := by
  induction turns generalizing b s c recCnt with
  | zero => cases enough
  | succ turns ih =>
    obtain ⟨b1,s1,c1,moves,finds⟩ := HeapFileScan.scanNext_spec owned scanning
    unfold deleteLoop
    generalize found : HeapFileScan.scanNext b s = outcome at finds
    cases finds with
    | eof passed done =>
      have nothing := HeapFileScan.filter_passed passed
      refine ⟨s1,b1,c1,recCnt,?_,moves.scanning,?_⟩
      · rw [Db.scanNext_at found]
        rfl
      · rw [nothing,moves.heap]
        exact (List.filter_eq_self.mpr fun e _ => by simp).symm
    | record skipped bytes remaining passed accepted current =>
      obtain ⟨b2,s2,c2,deleted,scanning2,filter2,_,ahead,left,_⟩ :=
        HeapFileScan.deleteRecord_live moves.scanning current rfl
      have shorter : c2.remaining.length < turns := by
        have length := congrArg List.length remaining
        rw [List.length_append,List.length_cons] at length
        rw [ahead]
        omega
      obtain ⟨s3,b3,c3,recCnt3,looped,scanning3,left3⟩ := ih scanning2 shorter
      refine ⟨s3,b3,c3,recCnt3,?_,scanning3,?_⟩
      · rw [Db.scanNext_at found,ok_bind]
        dsimp only
        rw [Db.deleteRecord_at deleted,ok_bind]
        exact looped
      · rw [left3,left,moves.heap,ahead,HeapFileScan.filter_next remaining passed accepted (filter2.trans moves.filter),
          List.filter_filter]
        refine List.filter_congr fun e _ => ?_
        simp only [List.map_cons,List.mem_cons]
        generalize (c1.remaining.filter fun e => s2.matchRec (.of e.2)).map Prod.fst = later
        by_cases here : e.1 = s1.curRec <;> by_cases there : e.1 ∈ later <;> simp [here,there]

variable {atof : List UInt8 → List UInt8} {shelf : Shelf} {cat file : HeldFile} {attrName : Name}

-- The descriptor QU_Delete goes by, and the condition it makes of it.
def deleteDesc (cat : Heap) (relation attrName : Name) (attrDesc : AttrDesc) : AttrDesc :=
  (attrOf cat relation attrName).getD ((attributes cat relation).getLast?.getD attrDesc)

def deleteCondition (atof : List UInt8 → List UInt8) (d : AttrDesc) (op : Operator) (type : Datatype)
    (attrValue : List UInt8) : Condition :=
  ⟨d.attrOffset,d.attrLen,type,searchValue atof type attrValue,op⟩

-- The file after its matching records have gone.
def Removed (file file' : HeldFile) (c : Condition) : Prop :=
  file'.books = file.books ∧ records file'.heap = (records file.heap).filter fun e => ¬ c.matchRec (.of e.2)

theorem deleteLoop_whole (db : Db) (relation : Name) {s : HeapFileScan} {c : Cursor} (owned : k.Owned)
    (scanning : HeapFileScan.Scanning k recCnt b s c) (all : c.remaining = records c.heap) :
    ∃ s' b' c' recCnt', deleteLoop relation ((db.setPool relation b).turns relation) (db.setPool relation b) s =
        .ok (.ok,s',db.setPool relation b') ∧ HeapFileScan.Scanning k recCnt' b' s' c' ∧
      records c'.heap = (records c.heap).filter fun e => ¬ s.matchRec (.of e.2) := by
  have enough : c.remaining.length < (db.setPool relation b).turns relation := by
    rw [Db.turns,Db.setPool_same]
    exact scanning.turns.2
  obtain ⟨s',b',c',recCnt',looped,scanning',left⟩ := deleteLoop_spec db relation _ owned scanning enough
  refine ⟨s',b',c',recCnt',looped,scanning',?_⟩
  rw [left,all]
  refine List.filter_congr fun e member => ?_
  -- A RID belongs to one record only, so the record itself is what was matched.
  have exact_rid : e.1 ∈ ((records c.heap).filter fun e => s.matchRec (.of e.2)).map Prod.fst ↔
      s.matchRec (.of e.2) = true := by
    constructor
    · intro there
      obtain ⟨e',matched,same⟩ := List.mem_map.mp there
      obtain ⟨inside,accepted⟩ := List.mem_filter.mp matched
      have one : e' = e := List.inj_on_of_nodup_map (records_keys_nodup scanning.stored.nodup) inside member same
      rw [← one]
      exact accepted
    · intro accepted
      exact List.mem_map.mpr ⟨e,List.mem_filter.mpr ⟨member,accepted⟩,rfl⟩
  simp only [exact_rid]

theorem QU_Delete_spec (atof : List UInt8 → List UInt8) (stands : db.Stands shelf)
    (catalog : shelf attrCatName = some cat) (wide : Rows cat.heap AttrDesc.size)
    (present : shelf relation = some file) (clean : 0 ∉ relation) (given : attrName ≠ []) (op : Operator)
    (type : Datatype)
    (attrValue : List UInt8) (attrDesc : AttrDesc) :
    let c := deleteCondition atof (deleteDesc cat.heap relation attrName attrDesc) op type attrValue
    (c.Sound → ∃ db' file', QU_Delete atof db relation attrName op type attrValue attrDesc = .ok (.ok,db') ∧
      db'.Stands (Function.update shelf relation (some file')) ∧ Removed file file' c) ∧
    (¬ c.Sound → ∃ db', QU_Delete atof db relation attrName op type attrValue attrDesc = .ok (.badScanParm,db') ∧
      db'.Stands shelf) := by
  intro condition
  have holds := stands relation file present
  have owned : file.books.opened.Owned := holds.2.1
  obtain ⟨b1,s1,c1,opened,made,whole,all,_,_,stands1,same,resume⟩ := stands.open_scan present
  -- The catalog is read while the scan is open, and it may be the catalog that is scanned.
  obtain ⟨cat1,catalog1,same1⟩ := Db.find_opened catalog present same
  obtain ⟨db2,asked,stands2⟩ := AttrCatalog.getInfo_stands stands1 catalog1 (by rw [same1]; exact wide) clean
    holds.1 given attrDesc
  obtain ⟨b2,at_file,scanning2⟩ := resume db2 _ stands2 (Function.update_self ..)
  rw [same1] at asked
  rw [at_file] at asked stands2
  have begun : QU_Delete atof db relation attrName op type attrValue attrDesc = (do
      let (status,hfs) := s1.startScan condition.offset condition.length (some condition.type)
        (some condition.filter) condition.op
      if status ≠ .ok then return (status,← (db2.setPool relation b2).deleteHeapFileScan relation hfs)
      let (status,hfs,db) ← deleteLoop relation ((db2.setPool relation b2).turns relation) (db2.setPool relation b2) hfs
      if status ≠ .ok then return (status,db)
      let (_,hfs,db) ← db.endScan relation hfs
      return (.ok,← db.deleteHeapFileScan relation hfs)) := by
    rw [QU_Delete,made,ok_bind]
    dsimp only
    rw [if_neg (not_not_intro rfl),asked,ok_bind]
    dsimp only
    rw [if_neg given]
    rfl
  rw [begun]
  constructor
  · intro sound
    obtain ⟨s3,b3,c3,recCnt3,looped,scanning3,left⟩ := deleteLoop_whole db2 relation owned
      (scanning2.filtered (some condition)) (by rw [all,whole])
    obtain ⟨s4,b4,b5,ended,deleted,kept5,view5⟩ := db2.end_spec relation holds.2.1 scanning3
    rw [whole] at left
    refine ⟨db2.setPool relation b5,⟨file.books,c3.heap,recCnt3⟩,?_,?_,rfl,left⟩
    · rw [s1.startScan_sound sound]
      dsimp only
      rw [if_neg (not_not_intro rfl),looped,ok_bind]
      dsimp only
      rw [if_neg (not_not_intro rfl),ended,ok_bind]
      dsimp only
      rw [deleted]
      rfl
    · have back := stands2.put (b:=b5) ⟨file.books,c3.heap,recCnt3⟩
        (Db.holds_setPool holds.1 holds.2.1 kept5 (by rw [view5]; exact scanning3.stored))
      rwa [Db.setPool_setPool,Function.update_idem] at back
  · intro unsound
    obtain ⟨b3,deleted,kept3,view3⟩ := db2.delete_spec relation holds.2.1 scanning2
    refine ⟨db2.setPool relation b3,?_,?_⟩
    · rw [s1.startScan_unsound unsound]
      dsimp only
      rw [if_pos (by decide),deleted]
      rfl
    · have stored : Stored b3.view file.books.first file.heap file.recCnt := by
        rw [view3,← whole]
        exact scanning2.stored
      have back := stands2.put (b:=b3) file (Db.holds_setPool holds.1 holds.2.1 kept3 stored)
      rwa [Db.setPool_setPool,Function.update_idem,← present,Function.update_eq_self] at back

-- What a caller may expect for an attribute that the relation does not have.
def ReportsUnknown (shelf : Shelf) (outcome : Except Abort (Status × Db)) : Prop :=
  ∃ db', outcome = .ok (.attrNotFound,db') ∧ db'.Stands shelf

-- QU_Delete goes by the attribute that the catalog lists last for the relation: it deletes what
-- matches there, or is refused by startScan.
theorem unknown_attribute_unreported (atof : List UInt8 → List UInt8) (db : Db) (shelf : Shelf)
    (stands : db.Stands shelf)
    (cat file : HeldFile) (catalog : shelf attrCatName = some cat) (wide : Rows cat.heap AttrDesc.size)
    (relation attrName : Name)
    (clean : 0 ∉ relation) (present : shelf relation = some file) (given : attrName ≠ [])
    (unknown : attrOf cat.heap relation attrName = none) (op : Operator) (type : Datatype) (attrValue : List UInt8)
    (attrDesc : AttrDesc) :
    let outcome := QU_Delete atof db relation attrName op type attrValue attrDesc
    let c := deleteCondition atof ((attributes cat.heap relation).getLast?.getD attrDesc) op type attrValue
    ¬ ReportsUnknown shelf outcome ∧
      (c.Sound → ∃ db' file', outcome = .ok (.ok,db') ∧ db'.Stands (Function.update shelf relation (some file')) ∧
        Removed file file' c) ∧
      (¬ c.Sound → ∃ db', outcome = .ok (.badScanParm,db') ∧ db'.Stands shelf) := by
  intro outcome c
  obtain ⟨deletes,refuses⟩ := QU_Delete_spec atof stands catalog wide present clean given op type attrValue attrDesc
  rw [deleteDesc,unknown] at deletes refuses
  refine ⟨?_,deletes,refuses⟩
  rintro ⟨db1,reported,_⟩
  by_cases sound : c.Sound
  · obtain ⟨db2,_,done,_⟩ := deletes sound
    cases (Except.ok.inj (reported.symm.trans done) ▸ rfl : (Status.attrNotFound,db1) = (Status.ok,db2))
  · obtain ⟨db2,done,_⟩ := refuses sound
    cases (Except.ok.inj (reported.symm.trans done) ▸ rfl : (Status.attrNotFound,db1) = (Status.badScanParm,db2))

theorem unknown_attribute_unreported_sample : ∃ shelf, ¬ ReportsUnknown shelf
    (QU_Delete id sampleDb [82] [122] .eq .integer [50] ⟨[],[],0,0,0⟩) := by
  obtain ⟨shelf,cat,file,_,_,stands,catalog,wide,present,_,_,recs,_,_,attrs,_⟩ := sampleDb_stands
  have unknown : attrOf cat.heap [82] [122] = none := by rw [attrOf,attrs]; decide
  exact ⟨shelf,(unknown_attribute_unreported id sampleDb shelf stands cat file catalog wide [82] [122]
    (by decide) present (by decide) unknown
    .eq .integer [50] ⟨[],[],0,0,0⟩).1⟩

-- The attribute z is unknown, and the record goes because its b is 2.
theorem unknown_attribute_deletes : ∃ shelf cat file db' file', sampleDb.Stands shelf ∧ shelf attrCatName = some cat ∧
    Rows cat.heap AttrDesc.size ∧ shelf [82] = some file ∧ attrOf cat.heap [82] [122] = none ∧
    QU_Delete id sampleDb [82] [122] .eq .integer [50] ⟨[],[],0,0,0⟩ = .ok (.ok,db') ∧
    db'.Stands (Function.update shelf [82] (some file')) ∧ (records file.heap).length = 1 ∧
      (records file'.heap).length = 0 := by
  obtain ⟨shelf,cat,file,_,_,stands,catalog,wide,present,_,_,recs,_,_,attrs,_⟩ := sampleDb_stands
  have unknown : attrOf cat.heap [82] [122] = none := by rw [attrOf,attrs]; decide
  obtain ⟨deletes,_⟩ := QU_Delete_spec id stands catalog wide present (by decide) (by decide : ([122] : Name) ≠ [])
    .eq .integer
    [50] ⟨[],[],0,0,0⟩
  rw [deleteDesc,unknown,attrs] at deletes
  obtain ⟨db',file',done,stands',_,removed⟩ := deletes (by decide)
  refine ⟨shelf,cat,file,db',file',stands,catalog,wide,present,unknown,done,stands',?_,?_⟩
  · rw [← List.length_map Prod.snd,recs]
    rfl
  · have all : ∀ bytes ∈ (records file.heap).map Prod.snd,
        (deleteCondition id ⟨[82],[98],4,1,4⟩ .eq .integer [50]).matchRec (.of bytes) = true := by
      rw [recs]
      decide
    rw [removed,List.length_eq_zero_iff,List.filter_eq_nil_iff]
    intro e member
    have matched := all e.2 (List.mem_map_of_mem member)
    simpa using matched

end Minirel
