import Minirel.CatalogFrames
import Minirel.Interp

namespace Minirel
open ByteMemory SlotDirectory Page Heap Db

variable {db : Db} {shelf : Shelf} {base : Db} {catalog relation source inner outer result : Name} {s : HeapFileScan}

-- Whoever only reads leaves the shelf as it is, whatever they return.
theorem Db.Stays.each {α : Type} {x : Except Abort α} {left : α → Db} (stays : db.Stays shelf base)
    (each : ∀ shelf', SameRecords shelf shelf' → db.Shelved shelf' base →
      Ends (fun a => (left a).Stays shelf' base) x) :
    Ends (fun a => (left a).Stays shelf base) x := by
  obtain ⟨shelf',same,shelved⟩ := stays
  exact fun a ended => (each shelf' same shelved a ended).from same

section rows

theorem openRows_reads (shelved : db.Shelved shelf base) (catalog relation : Name) :
    Ends (fun r => (r.1 = .ok → r.2.2.ScanOf shelf base catalog r.2.1) ∧ (r.1 ≠ .ok → r.2.2.Shelved shelf base))
      (openRows db catalog relation) := by
  rw [openRows]
  refine (shelved.newHeapFileScan catalog).bind fun r opened => ?_
  obtain ⟨status,hfs,db1⟩ := r
  dsimp only
  split
  · rename_i failed
    exact .ok ⟨fun fine => absurd fine failed,opened.2⟩
  · rename_i fine
    have reads := (opened.1 (not_not.mp fine)).startScan 0 (relation.length + 1) (some .string) (some relation) .eq
    split
    · rename_i failed
      refine reads.delete.bind fun db2 after => .ok ?_
      exact ⟨fun fine => absurd fine failed,fun _ => after⟩
    · exact .ok ⟨fun _ => reads,fun failed => absurd rfl failed⟩

theorem scanRows_reads {α : Type} (size : Nat) (visit : α → List UInt8 → α × Bool) (turns : Nat) (a : α)
    (reads : db.ScanOf shelf base catalog s) :
    Ends (fun r => r.2.2.2.ScanOf shelf base catalog r.2.2.1) (scanRows catalog size visit turns db s a) := by
  induction turns generalizing db s a with
  | zero => exact .throw _
  | succ turns ih =>
    rw [scanRows]
    refine reads.scanNext.bind fun r moved => ?_
    obtain ⟨next,s1,db1⟩ := r
    dsimp only
    split
    · exact .ok moved
    · refine (Ends.any _).bind fun read _ => ?_
      split
      · exact .ok moved
      · split
        · exact .throw _
        · split
          · exact .ok moved
          · exact ih _ moved

theorem closeRows_reads (status : Status) (reads : db.ScanOf shelf base catalog s) :
    Ends (fun r => r.2.Shelved shelf base) (closeRows db catalog s status) := by
  rw [closeRows]
  exact reads.endScan.bind fun r ended => ended.2.bind fun db2 after => .ok after

-- The body that the three methods have in common: one walk over the rows of a relation.
theorem walk_stays {α : Type} (stays : db.Stays shelf base) (catalog relation : Name) (size : Nat)
    (visit : α → List UInt8 → α × Bool)
    (a : α) (judge : Status → α → Status) :
    Ends (fun r : Status × α × Db => r.2.2.Stays shelf base) (do
      let (status,hfs,db) ← openRows db catalog relation
      if status ≠ .ok then return (status,a,db)
      let (ended,a,hfs,db) ← scanRows catalog size visit (db.turns catalog) db hfs a
      match ended with
      | .error status => return (status,a,db)
      | .ok status =>
        let (status,db) ← closeRows db catalog hfs (judge status a)
        return (status,a,db)) := by
  refine stays.each fun shelf' _ shelved => ?_
  refine (openRows_reads shelved catalog relation).bind fun r opened => ?_
  obtain ⟨status,hfs,db1⟩ := r
  dsimp only
  split
  · rename_i failed
    exact .ok (opened.2 failed).stays
  · rename_i fine
    refine (scanRows_reads _ _ _ _ (opened.1 (not_not.mp fine))).bind fun r walked => ?_
    obtain ⟨ended,a',hfs1,db2⟩ := r
    dsimp only
    split
    · exact .ok walked.stays
    · exact (closeRows_reads _ walked).bind fun r after => .ok after.stays

theorem RelCatalog.getInfo_stays (stays : db.Stays shelf base) (relation : Name) (record : RelDesc) :
    Ends (fun r => r.2.2.Stays shelf base) (RelCatalog.getInfo db relation record) := by
  rw [RelCatalog.getInfo]
  split
  · exact .ok stays
  · exact walk_stays stays relCatName relation RelDesc.size takeFirst record fun status _ => if status =
      .fileEof then .relNotFound else status

theorem AttrCatalog.getInfo_stays (stays : db.Stays shelf base) (relation attrName : Name) (record : AttrDesc) :
    Ends (fun r => r.2.2.Stays shelf base) (AttrCatalog.getInfo db relation attrName record) := by
  rw [AttrCatalog.getInfo]
  split
  · exact .ok stays
  · exact walk_stays stays attrCatName relation AttrDesc.size (takeNamed attrName) record fun status _ =>
      if status = .fileEof then .attrNotFound else status

theorem AttrCatalog.getRelInfo_stays (stays : db.Stays shelf base) (relation : Name) :
    Ends (fun r => r.2.2.Stays shelf base) (AttrCatalog.getRelInfo db relation) := by
  rw [AttrCatalog.getRelInfo]
  split
  · exact .ok stays
  · exact walk_stays stays attrCatName relation AttrDesc.size takeAll [] fun status attrs =>
      if status = .fileEof then if attrs = [] then .relNotFound else .ok else status

end rows

section queries

-- The target of a query is on no shelf, and its sources are only read.
theorem selectLoop_reads (off : shelf result = none) (projNames : List AttrDesc) (turns : Nat) (rel : InsertFileScan)
    (reads : db.ScanOf shelf base source s) :
    Ends (fun r => r.2.2.2.ScanOf shelf base source r.2.1) (selectLoop source result projNames turns db s rel) := by
  induction turns generalizing db s rel with
  | zero => exact .throw _
  | succ turns ih =>
    rw [selectLoop]
    refine reads.scanNext.bind fun r moved => ?_
    obtain ⟨next,s1,db1⟩ := r
    dsimp only
    split
    · exact .ok moved
    · refine (Ends.any _).bind fun read _ => ?_
      split
      · exact .ok moved
      · refine (Ends.any _).bind fun data _ => ?_
        refine (insertRecord_only db1 result rel (.of data)).bind fun r only => ?_
        obtain ⟨inserted,rel1,db2⟩ := r
        dsimp only
        split
        · exact .ok (moved.only off only)
        · exact ih rel1 (moved.only off only)

theorem ScanSelect_stays (stays : db.Stays shelf base) (off : shelf result = none) (atof : List UInt8 → List UInt8)
    (turns : Nat)
    (projNames : List AttrDesc) (attrDesc : Option AttrDesc) (op : Operator) (filter : List UInt8) :
    Ends (fun r => r.2.Stays shelf base) (ScanSelect atof turns db result projNames attrDesc op filter) := by
  rw [ScanSelect]
  split
  swap
  · exact .throw _
  rename_i first _
  refine stays.each fun shelf' same shelved => ?_
  have off' := (same.off result).mpr off
  refine (shelved.newHeapFileScan first.relName).bind fun r opened => ?_
  obtain ⟨status,hfs,db1⟩ := r
  dsimp only
  split
  · rename_i failed
    exact .ok (opened.2 failed).stays
  rename_i fine
  refine (newInsertFileScan_only db1 result).bind fun r only => ?_
  obtain ⟨status1,rel,db2⟩ := r
  dsimp only
  split
  · exact .throw _
  have reads := (opened.1 (not_not.mp fine)).only off' only
  have started : db2.ScanOf shelf' base first.relName (startSelect atof hfs attrDesc op filter).2 := by
    unfold startSelect
    split
    · exact reads.startScan 0 0 (some .string) none .eq
    · split
      · exact reads
      · exact reads.startScan _ _ _ _ op
  generalize startSelect atof hfs attrDesc op filter = outcome at started ⊢
  obtain ⟨status2,hfs1⟩ := outcome
  dsimp only
  split
  · refine started.delete.bind fun db3 after => ?_
    exact (deleteInsertFileScan_only db3 result rel).bind fun db4 only => .ok (after.only off' only).stays
  · refine (selectLoop_reads off' projNames turns rel started).bind fun r looped => ?_
    obtain ⟨status3,hfs2,rel1,db3⟩ := r
    dsimp only
    refine looped.endScan.bind fun r ended => ?_
    refine ended.2.bind fun db5 after => ?_
    exact (deleteInsertFileScan_only db5 result rel1).bind fun db6 only => .ok (after.only off' only).stays

theorem projDescs_stays (stays : db.Stays shelf base) (infos : List AttrInfo) :
    Ends (fun r => r.2.2.Stays shelf base) (projDescs db infos) := by
  induction infos generalizing db with
  | nil => exact .ok stays
  | cons p ps ih =>
    rw [projDescs]
    refine (AttrCatalog.getInfo_stays stays _ _ _).bind fun r asked => ?_
    obtain ⟨status,d,db1⟩ := r
    dsimp only
    split
    · exact .ok asked
    · exact (ih asked).bind fun r later => .ok later

theorem QU_Select_stays (stays : db.Stays shelf base) (off : shelf result = none) (atof : List UInt8 → List UInt8)
    (turns : Nat)
    (projNames : List AttrInfo) (attr : Option AttrInfo) (op : Operator) (attrValue : List UInt8) :
    Ends (fun r => r.2.Stays shelf base) (QU_Select atof turns db result projNames attr op attrValue) := by
  rw [QU_Select]
  refine (projDescs_stays stays projNames).bind fun r found => ?_
  obtain ⟨status,descs,db1⟩ := r
  dsimp only
  split
  · exact .ok found
  split
  · exact (Ends.any _).bind fun total _ => ScanSelect_stays found off _ _ _ _ _ _
  · refine (AttrCatalog.getInfo_stays found _ _ _).bind fun r asked => ?_
    obtain ⟨status1,d,db2⟩ := r
    dsimp only
    split
    · exact .ok asked
    · exact (Ends.any _).bind fun total _ => ScanSelect_stays asked off _ _ _ _ _ _

theorem innerLoop_reads (off : shelf result = none) (outerName : Name) (descs : List AttrDesc) (outerRec : Record)
    (turns : Nat)
    (rel : InsertFileScan) (reads : db.ScanOf shelf base inner s) :
    Ends (fun r => r.2.2.ScanOf shelf base inner r.1) (innerLoop inner result outerName descs outerRec turns
      db s rel) := by
  induction turns generalizing db s rel with
  | zero => exact .throw _
  | succ turns ih =>
    rw [innerLoop]
    refine reads.scanNext.bind fun r moved => ?_
    obtain ⟨next,s1,db1⟩ := r
    dsimp only
    split
    · exact .ok moved
    · refine (Ends.any _).bind fun read _ => ?_
      split
      · exact .throw _
      · refine (Ends.any _).bind fun data _ => ?_
        refine (insertRecord_only db1 result rel (.of data)).bind fun r only => ?_
        obtain ⟨inserted,rel1,db2⟩ := r
        dsimp only
        split
        · exact .throw _
        · exact ih rel1 (moved.only off only)

theorem joinOuter_shelved (off : shelf result = none) (descs : List AttrDesc) (d1 d2 : AttrDesc) (op : Operator)
    (turns : Nat)
    (outerRec : Record) (rel : InsertFileScan) (shelved : db.Shelved shelf base) :
    Ends (fun r => r.2.2.Shelved shelf base) (joinOuter outer inner result descs d1 d2 op turns db outerRec rel) := by
  rw [joinOuter]
  refine (shelved.newHeapFileScan inner).bind fun r opened => ?_
  obtain ⟨status,innerScan,db1⟩ := r
  dsimp only
  split
  · exact .throw _
  rename_i fine
  have reads := (opened.1 (not_not.mp fine)).startScan d2.attrOffset d2.attrLen (Datatype.ofCode d2.attrType)
    (some (outerRec.data.drop d1.attrOffset.toNat)) op.mirror
  split
  · exact reads.delete.bind fun db2 after => .ok after
  · split
    · exact .throw _
    · refine (innerLoop_reads off outer descs outerRec turns rel reads).bind fun r looped => ?_
      exact looped.delete.bind fun db3 after => .ok after

-- The outer scan waits while the inner one, on the same file or another, comes and goes.
theorem outerLoop_reads (off : shelf result = none) (descs : List AttrDesc) (d1 d2 : AttrDesc) (op : Operator)
    (innerTurns turns : Nat)
    (rel : InsertFileScan) (reads : db.ScanOf shelf base outer s) :
    Ends (fun r => r.2.2.2.ScanOf shelf base outer r.2.1)
      (outerLoop outer inner result descs d1 d2 op innerTurns turns db s rel) := by
  induction turns generalizing db s rel with
  | zero => exact .throw _
  | succ turns ih =>
    rw [outerLoop]
    refine reads.scanNext.bind fun r moved => ?_
    obtain ⟨next,s1,db1⟩ := r
    dsimp only
    split
    · exact .ok moved
    · refine (Ends.any _).bind fun read _ => ?_
      split
      · exact .throw _
      · obtain ⟨shelf',same,shelved,resume⟩ := ScanOf.park moved
        refine (joinOuter_shelved ((same.off result).mpr off) descs d1 d2 op innerTurns _ rel shelved).bind fun r
          joined => ?_
        obtain ⟨status,rel1,db2⟩ := r
        dsimp only
        split
        · exact .ok (resume db2 joined)
        · exact ih rel1 (resume db2 joined)

theorem joinScan_stays (stays : db.Stays shelf base) (off : shelf result = none) (turns : Nat) (descs : List AttrDesc)
    (d1 d2 : AttrDesc) (op : Operator) : Ends (fun r => r.2.Stays shelf base)
    (joinScan turns db result descs d1 d2 op) := by
  rw [joinScan]
  refine stays.each fun shelf' same shelved => ?_
  have off' := (same.off result).mpr off
  refine (newInsertFileScan_only db result).bind fun r only => ?_
  obtain ⟨status,rel,db1⟩ := r
  dsimp only
  split
  · exact .throw _
  refine ((shelved.only off' only).newHeapFileScan d1.relName).bind fun r opened => ?_
  obtain ⟨status1,outerScan,db2⟩ := r
  dsimp only
  split
  · exact .throw _
  rename_i fine
  have reads := (opened.1 (not_not.mp fine)).startScan 0 0 (some .string) none .eq
  refine (outerLoop_reads off' descs d1 d2 op turns turns rel reads).bind fun r looped => ?_
  obtain ⟨status2,outerScan1,rel1,db3⟩ := r
  dsimp only
  refine looped.delete.bind fun db4 after => ?_
  exact (deleteInsertFileScan_only db4 result rel1).bind fun db5 only => .ok (after.only off' only).stays

theorem QU_Join_stays (stays : db.Stays shelf base) (off : shelf result = none) (joinMethod : JoinType) (turns : Nat)
    (projNames : List AttrInfo) (attr1 : AttrInfo) (op : Operator) (attr2 : AttrInfo) :
    Ends (fun r => r.2.Stays shelf base) (QU_Join joinMethod turns db result projNames attr1 op attr2) := by
  rw [QU_Join]
  split
  · rw [QU_NL_Join]
    split
    · exact .ok stays
    refine (projDescs_stays stays projNames).bind fun r found => ?_
    obtain ⟨status,descs,db1⟩ := r
    dsimp only
    split
    · exact .ok found
    refine (AttrCatalog.getInfo_stays found _ _ _).bind fun r asked1 => ?_
    obtain ⟨status1,d1,db2⟩ := r
    dsimp only
    split
    · exact .ok asked1
    refine (AttrCatalog.getInfo_stays asked1 _ _ _).bind fun r asked2 => ?_
    obtain ⟨status2,d2,db3⟩ := r
    dsimp only
    split
    · exact .ok asked2
    · exact (Ends.any _).bind fun total _ => joinScan_stays asked2 off _ _ _ _ _
  · split
    · refine .ok ?_
      rw [QU_SM_Join]
      split
      · exact stays
      · exact stays
    · refine .ok ?_
      rw [QU_Hash_Join]
      split
      · exact stays
      · exact stays

theorem runRequest_stays (stays : db.Stays shelf base) (off : shelf result = none) (setting : Setting)
    (infos : List AttrInfo)
    (request : Interp.Request) : Ends (fun r => r.2.Stays shelf base) (runRequest setting db result infos request) := by
  cases request with
  | select attr op attrValue => exact QU_Select_stays stays off _ _ _ _ _ _
  | join attr1 op attr2 => exact QU_Join_stays stays off _ _ _ _ _ _

end queries

section statements

theorem printLoop_reads (turns : Nat) (reads : db.ScanOf shelf base relation s) :
    Ends (fun r => r.2.2.2.ScanOf shelf base relation r.2.2.1) (printLoop relation turns db s) := by
  induction turns generalizing db s with
  | zero => exact .throw _
  | succ turns ih =>
    rw [printLoop]
    refine reads.scanNext.bind fun r moved => ?_
    obtain ⟨next,s1,db1⟩ := r
    dsimp only
    split
    · exact .ok moved
    · refine (Ends.any _).bind fun read _ => ?_
      split
      · exact .ok moved
      · exact (ih moved).bind fun r later => .ok later

theorem UT_Print_stays (stays : db.Stays shelf base) (turns : Nat) (relation : Name) :
    Ends (fun r => r.2.2.Stays shelf base) (UT_Print turns db relation) := by
  rw [UT_Print]
  refine (RelCatalog.getInfo_stays stays _ _).bind fun r asked => ?_
  obtain ⟨status,rd,db1⟩ := r
  dsimp only
  split
  · exact .ok asked
  refine (AttrCatalog.getRelInfo_stays asked _).bind fun r listed => ?_
  obtain ⟨status1,attrs,db2⟩ := r
  dsimp only
  split
  · exact .ok listed
  refine Stays.each listed fun shelf' _ shelved => ?_
  refine (shelved.newHeapFileScan rd.relName).bind fun r opened => ?_
  obtain ⟨status2,hfile,db3⟩ := r
  dsimp only
  split
  · rename_i failed
    exact .ok (opened.2 failed).stays
  rename_i fine
  have reads := (opened.1 (not_not.mp fine)).startScan 0 0 (some .integer) none .eq
  split
  · exact .ok reads.stays
  refine (printLoop_reads turns reads).bind fun r looped => ?_
  obtain ⟨status3,recs,hfile1,db4⟩ := r
  dsimp only
  split
  · exact .ok looped.stays
  refine looped.endScan.bind fun r ended => ?_
  obtain ⟨status4,hfile2,db5⟩ := r
  dsimp only
  split
  · rename_i failed
    exact .ok (ended.1 failed).stays
  · exact ended.2.bind fun db6 after => .ok after.stays

theorem RelCatalog.help_stays (stays : db.Stays shelf base) (turns : Nat) (relation : Name) :
    Ends (fun r => r.2.Stays shelf base) (RelCatalog.help turns db relation) := by
  rw [RelCatalog.help]
  split
  · exact (UT_Print_stays stays turns relCatName).bind fun r printed => .ok printed
  refine (RelCatalog.getInfo_stays stays _ _).bind fun r asked => ?_
  obtain ⟨status,rd,db1⟩ := r
  dsimp only
  split
  · exact .ok asked
  · exact (AttrCatalog.getRelInfo_stays asked _).bind fun r listed => .ok listed

theorem QU_Insert_stays (stays : db.Stays shelf base) (off : shelf relation = none) (atof : List UInt8 → List UInt8)
    (stack : List UInt8)
    (attrList : List AttrInfo) : Ends (fun r => r.2.Stays shelf base) (QU_Insert atof stack db relation attrList) := by
  rw [QU_Insert]
  refine (newInsertFileScan_only db relation).bind fun r only => ?_
  obtain ⟨status,rel,db1⟩ := r
  have opened := stays.only off only
  dsimp only
  split
  · split
    · exact .throw _
    · exact (deleteInsertFileScan_only db1 relation rel).bind fun db2 only => .ok (opened.only off only)
  have inserted : Ends (fun r => r.2.2.Stays shelf base) (insertInto atof stack db1 relation attrList rel) := by
    rw [insertInto]
    refine (AttrCatalog.getRelInfo_stays opened relation).bind fun r listed => ?_
    obtain ⟨status1,attrs,db2⟩ := r
    dsimp only
    split
    · exact .ok listed
    split
    · exact .ok listed
    refine (Ends.any _).bind fun size _ => ?_
    split
    · exact .ok listed
    refine (Ends.any _).bind fun data _ => ?_
    exact (insertRecord_only db2 relation rel (.of data)).bind fun r only => .ok (Stays.only listed off only)
  refine inserted.bind fun r after => ?_
  obtain ⟨status1,rel1,db2⟩ := r
  exact (deleteInsertFileScan_only db2 relation rel1).bind fun db3 only => .ok (Stays.only after off only)

theorem deleteLoop_stays (stays : db.Stays shelf base) (off : shelf relation = none) (turns : Nat) (s : HeapFileScan) :
    Ends (fun r => r.2.2.Stays shelf base) (deleteLoop relation turns db s) := by
  induction turns generalizing db s with
  | zero => exact .throw _
  | succ turns ih =>
    rw [deleteLoop]
    refine (scanNext_only db relation s).bind fun r only => ?_
    obtain ⟨next,s1,db1⟩ := r
    have moved := stays.only off only
    dsimp only
    split
    · exact .ok moved
    · refine (deleteRecord_only db1 relation s1).bind fun r only => ?_
      obtain ⟨status,s2,db2⟩ := r
      have deleted := moved.only off only
      dsimp only
      split
      · exact .ok deleted
      · exact ih deleted s2

theorem QU_Delete_stays (stays : db.Stays shelf base) (off : shelf relation = none) (atof : List UInt8 → List UInt8)
    (attrName : Name)
    (op : Operator) (type : Datatype) (attrValue : List UInt8) (attrDesc : AttrDesc) :
    Ends (fun r => r.2.Stays shelf base) (QU_Delete atof db relation attrName op type attrValue attrDesc) := by
  rw [QU_Delete]
  refine (newHeapFileScan_only db relation).bind fun r only => ?_
  obtain ⟨status,hfs,db1⟩ := r
  have opened := stays.only off only
  dsimp only
  split
  · exact .ok opened
  refine (AttrCatalog.getInfo_stays opened _ _ _).bind fun r asked => ?_
  obtain ⟨status1,attrDesc1,db2⟩ := r
  change db2.Stays shelf base at asked
  generalize ite (attrName = []) _ _ = outcome
  obtain ⟨status2,hfs1⟩ := outcome
  dsimp only
  split
  · exact (deleteHeapFileScan_only db2 relation hfs1).bind fun db3 only => .ok (asked.only off only)
  refine (deleteLoop_stays asked off _ hfs1).bind fun r looped => ?_
  obtain ⟨status3,hfs2,db3⟩ := r
  dsimp only
  split
  · exact .ok looped
  refine (endScan_only db3 relation hfs2).bind fun r only => ?_
  obtain ⟨status4,hfs3,db4⟩ := r
  have ended := Stays.only looped off only
  exact (deleteHeapFileScan_only db4 relation hfs3).bind fun db5 only => .ok (ended.only off only)

theorem loadLoop_stays (stays : db.Stays shelf base) (off : shelf relation = none) (reads : Nat → Option (List UInt8))
    (width : Int)
    (turns done : Nat) (iFile : InsertFileScan) :
    Ends (fun r => r.2.2.Stays shelf base) (loadLoop reads relation width turns done db iFile) := by
  induction turns generalizing db done iFile with
  | zero => exact .throw _
  | succ turns ih =>
    rw [loadLoop]
    split
    · exact .ok stays
    · split
      · exact .ok stays
      · refine (insertRecord_only db relation iFile _).bind fun r only => ?_
        obtain ⟨inserted,iFile1,db1⟩ := r
        have after := stays.only off only
        dsimp only
        split
        · exact .ok after
        · exact ih after (done + 1) iFile1

end statements
end Minirel
