import Minirel.Select

namespace Minirel
open ByteMemory SlotDirectory Page Heap

section calls

variable {α β : Type}

-- Whatever the call ends with has P; it need not end.
def Ends (P : α → Prop) (x : Except Abort α) : Prop := ∀ a, x = .ok a → P a

theorem Ends.ok {P : α → Prop} {a : α} (holds : P a) : Ends P (.ok a) := by
  rintro _ ⟨⟩
  exact holds

theorem Ends.throw {P : α → Prop} (abort : Abort) : Ends P (.error abort) := by
  intro a ended
  cases ended

theorem Ends.bind {P : β → Prop} {Q : α → Prop} {x : Except Abort α} {f : α → Except Abort β} (one : Ends Q x)
    (two : ∀ a, Q a → Ends P (f a)) : Ends P (x >>= f) := by
  intro b ended
  obtain ⟨a,first,second⟩ := of_bind_ok ended
  exact two a (one a first) b second

theorem Ends.any (x : Except Abort α) : Ends (fun _ => True) x := fun _ _ => trivial

end calls

-- No call to come of a file fails with ATTRTYPEMISMATCH, which is no answer of the layers below the
-- query processor.
def Pool.NoMismatch (b : Pool) : Prop := some .attrTypeMismatch ∉ b.faults

def Db.NoMismatch (db : Db) : Prop := ∀ name b, db.files name = some b → b.NoMismatch

-- A status other than ATTRTYPEMISMATCH, with what it leaves.
def Clear {σ : Type} (quiet : σ → Prop) (r : Status × σ) : Prop := r.1 ≠ .attrTypeMismatch ∧ quiet r.2

theorem Clear.of {σ : Type} {quiet : σ → Prop} {status : Status} {rest : σ} (known : status ≠ .attrTypeMismatch)
    (after : quiet rest) :
    Clear quiet (status,rest) := ⟨known,after⟩

-- The same of a call that answers something.
def Answers {α σ : Type} (quiet : σ → Prop) (r : Except Status α × σ) : Prop := r.1 ≠ .error .attrTypeMismatch ∧
    quiet r.2

theorem Answers.of {α σ : Type} {quiet : σ → Prop} {a : α} {rest : σ} (after : quiet rest) :
    Answers quiet (.ok a,rest) :=
  ⟨fun same => (by cases same),after⟩

theorem Answers.failed {α σ : Type} {quiet : σ → Prop} {status : Status} {rest : σ}
    (known : status ≠ .attrTypeMismatch) (after : quiet rest) :
    Answers (α:=α) quiet (.error status,rest) := by
  refine ⟨fun same => ?_,after⟩
  cases same
  exact known rfl

theorem Answers.known {α σ : Type} {quiet : σ → Prop} {status : Status} {rest : σ}
    (answers : Answers (α:=α) quiet (.error status,rest)) :
    status ≠ .attrTypeMismatch := fun same => answers.1 (congrArg _ same)

-- The two answers of startScan.
def Scanned {σ : Type} (r : Status × σ) : Prop := r.1 = .ok ∨ r.1 = .badScanParm

theorem Scanned.known {σ : Type} {r : Status × σ} (scanned : Scanned r) : r.1 ≠ .attrTypeMismatch := by
  rcases scanned with fine | refused
  · rw [fine]
    decide
  · rw [refused]
    decide

namespace Pool

variable {b : Pool} {n : Int}

theorem NoMismatch.nextCall (none_fails : b.NoMismatch) :
    b.nextCall.NoMismatch := fun member => none_fails (List.mem_of_mem_tail member)

theorem NoMismatch.setFrame (none_fails : b.NoMismatch) (frame : Option Frame) :
    (b.setFrame n frame).NoMismatch := none_fails

theorem NoMismatch.fault (none_fails : b.NoMismatch) {status : Status} (failed : b.faults.head?.join = some status) :
    status ≠ .attrTypeMismatch := by
  rintro rfl
  exact none_fails (List.mem_of_head? (Option.join_eq_some_iff.mp failed))

theorem readPage_error {io : Io} {file : UnixFile} {status : Status}
    (failed : File.readPage io file n = .error status) :
    status ≠ .attrTypeMismatch := by
  rw [File.readPage,File.intread] at failed
  split at failed
  · cases failed
    decide
  · split at failed
    · cases failed
      decide
    · split at failed <;> cases failed
      decide

theorem NoMismatch.getFirstPage (none_fails : b.NoMismatch) : b.getFirstPage.2.NoMismatch := by
  rw [Pool.getFirstPage]
  split <;> exact none_fails.nextCall

theorem NoMismatch.readPage (none_fails : b.NoMismatch) (n : Int) : Clear NoMismatch (b.readPage n) := by
  rw [Pool.readPage]
  split
  · exact .of (by decide) (none_fails.setFrame _)
  · split
    · rename_i status failed
      exact ⟨none_fails.fault failed,none_fails.nextCall⟩
    · split
      · rename_i status failed
        exact ⟨readPage_error failed,none_fails.nextCall⟩
      · exact .of (by decide) (none_fails.nextCall.setFrame _)

theorem NoMismatch.after_read {b' : Pool} {status : Status} (none_fails : b.NoMismatch)
    (read : b.readPage n = (status,b')) :
    status ≠ .attrTypeMismatch ∧ b'.NoMismatch := by
  have after := none_fails.readPage n
  rwa [read] at after

theorem NoMismatch.unPinPage (none_fails : b.NoMismatch) (n : Int) (dirty : Bool) :
    Clear NoMismatch (b.unPinPage n dirty) := by
  rw [Pool.unPinPage]
  split
  · exact .of (by decide) none_fails
  · refine .of (by decide) (NoMismatch.setFrame ?_ _)
    cases dirty <;> exact none_fails

end Pool

namespace Db

variable {db : Db} {name : Name}

theorem NoMismatch.setPool (none_fails : db.NoMismatch) {b : Pool} (here : b.NoMismatch) :
    (db.setPool name b).NoMismatch := by
  intro other found there
  by_cases same : other = name
  · subst same
    rw [setPool_same] at there
    cases there
    exact here
  · rw [setPool_other b same] at there
    exact none_fails other found there

theorem NoMismatch.pool (none_fails : db.NoMismatch) : Ends Pool.NoMismatch (db.pool name) := by
  intro b found
  rw [Db.pool] at found
  split at found
  · rename_i held there
    cases found
    exact none_fails name b there
  · cases found

theorem NoMismatch.openFile (none_fails : db.NoMismatch) (name : Name) : Clear NoMismatch (db.openFile name) := by
  rw [Db.openFile]
  split
  · exact .of (by decide) none_fails
  · split
    · exact .of (by decide) none_fails
    · rename_i b there
      exact .of (by decide : Status.ok ≠ .attrTypeMismatch) (none_fails.setPool (none_fails name b there))

end Db

-- Of the answers of the methods of an object.
def PoolAfter {σ : Type} (r : σ × Pool) : Prop := r.2.NoMismatch

theorem Page.getRecord_error {p : Page} {rid : RID} {status : Status} (failed : p.getRecord rid = .error status) :
    status ≠ .attrTypeMismatch := by
  rw [Page.getRecord] at failed
  split at failed
  · cases failed
  · cases failed
    decide

section methods

variable {b : Pool}

theorem HeapFile.construct_status (none_fails : b.NoMismatch) (h : HeapFile) :
    Ends (Clear PoolAfter) (HeapFile.construct b h) := by
  unfold HeapFile.construct
  have first := none_fails.getFirstPage
  dsimp only
  split
  · rename_i b1 read
    have header := (first.after_read read).2
    refine (Ends.any _).bind fun page _ => ?_
    split
    · rename_i b2 read
      exact .ok (.of (by decide) (header.after_read read).2)
    · rename_i b2 read
      exact .ok (.of (by decide) (header.after_read read).2)
  · exact .throw _

theorem HeapFile.destroy_status (none_fails : b.NoMismatch) (h : HeapFile) : (h.destroy b).NoMismatch := by
  rw [HeapFile.destroy]
  split
  · exact ((none_fails.unPinPage _ _).2.unPinPage _ _).2
  · exact (none_fails.unPinPage _ _).2

namespace HeapFileScan

theorem startScan_scanned (s : HeapFileScan) (offset length : Int) (type : Option Datatype)
    (filter : Option (List UInt8)) (op : Operator) :
    Scanned (s.startScan offset length type filter op) := by
  unfold startScan
  split
  · exact .inl rfl
  · split
    · exact .inr rfl
    · split
      · exact .inr rfl
      · exact .inl rfl

theorem endScan_status (none_fails : b.NoMismatch) (s : HeapFileScan) : Clear PoolAfter (s.endScan b) := by
  rw [endScan]
  split
  · exact none_fails.unPinPage _ _
  · exact .of (by decide) none_fails

theorem destroy_status (none_fails : b.NoMismatch) (s : HeapFileScan) : (s.destroy b).NoMismatch :=
  HeapFile.destroy_status (endScan_status none_fails s).2 _

theorem construct_status (none_fails : b.NoMismatch) (s : HeapFileScan) : Ends (Clear PoolAfter) (construct b s) := by
  rw [construct]
  exact (HeapFile.construct_status none_fails _).bind fun _ made => .ok made

theorem nextPages_status (turns : Nat) (none_fails : b.NoMismatch) (s : HeapFileScan) :
    Ends (Answers PoolAfter) (nextPages turns b s) := by
  induction turns generalizing b s with
  | zero => exact .throw _
  | succ turns ih =>
    rw [nextPages]
    refine (Ends.any _).bind fun page _ => ?_
    dsimp only
    split
    · exact .ok (.failed (by decide) none_fails)
    · have given := none_fails.unPinPage s.curPageNo s.curDirtyFlag
      generalize b.unPinPage s.curPageNo s.curDirtyFlag = unpinned at given ⊢
      split
      · rename_i b1
        have taken := given.2.readPage page.getNextPage
        generalize Pool.readPage b1 page.getNextPage = read at taken ⊢
        split
        · refine (Ends.any _).bind fun next _ => ?_
          split
          · exact .ok (.of taken.2)
          · exact ih taken.2 _
        · exact .ok (.failed taken.1 taken.2)
      · exact .ok (.failed given.1 given.2)

theorem advance_status (none_fails : b.NoMismatch) (s : HeapFileScan) : Ends (Answers PoolAfter) (advance b s) := by
  rw [advance]
  refine (Ends.any _).bind fun page _ => ?_
  split
  · exact .ok (.of none_fails)
  · exact nextPages_status _ none_fails s

theorem nextRecords_status (turns : Nat) (none_fails : b.NoMismatch) (s : HeapFileScan) :
    Ends (Answers PoolAfter) (nextRecords turns b s) := by
  induction turns generalizing b s with
  | zero => exact .throw _
  | succ turns ih =>
    rw [nextRecords]
    refine (advance_status none_fails s).bind fun r after => ?_
    obtain ⟨moved,s1,b1⟩ := r
    dsimp only
    split
    · exact .ok (.failed after.known after.2)
    · refine (Ends.any _).bind fun page _ => ?_
      split
      · rename_i failed
        exact .ok (.failed (Page.getRecord_error failed) after.2)
      · split
        · exact .ok (.of after.2)
        · exact ih after.2 s1

theorem scanFirst_status (none_fails : b.NoMismatch) (s : HeapFileScan) : Ends (Answers PoolAfter) (scanFirst b s) := by
  rw [scanFirst]
  refine (Ends.any _).bind fun header _ => ?_
  generalize FileHdrPage.firstPage header = first
  dsimp only
  split
  · exact .ok (.failed (by decide) none_fails)
  · have taken := none_fails.readPage first
    generalize b.readPage first = read at taken ⊢
    obtain ⟨status,b1⟩ := read
    dsimp only
    split
    · exact .ok (.failed taken.1 taken.2)
    · refine (Ends.any _).bind fun page _ => ?_
      split
      · have given := taken.2.unPinPage first false
        generalize b1.unPinPage first false = unpinned at given ⊢
        split
        · exact .ok (.failed (by decide) given.2)
        · exact .ok (.failed given.1 given.2)
      · split
        · rename_i failed
          exact .ok (.failed (Page.getRecord_error failed) taken.2)
        · split
          · exact .ok (.of taken.2)
          · exact nextRecords_status _ taken.2 _

theorem scanNext_status (none_fails : b.NoMismatch) (s : HeapFileScan) : Ends (Answers PoolAfter) (scanNext b s) := by
  rw [scanNext]
  split
  · exact .ok (.failed (by decide) none_fails)
  · split
    · exact scanFirst_status none_fails s
    · exact nextRecords_status _ none_fails s

end HeapFileScan
end methods

-- The catalog's rows are looked up through one scan of it.
section lookups

variable {db : Db} {name : Name}

def DbAfter {σ : Type} (r : σ × Db) : Prop := r.2.NoMismatch

theorem Db.newHeapFileScan_status (none_fails : db.NoMismatch) : Ends (Clear DbAfter) (db.newHeapFileScan name) := by
  rw [Db.newHeapFileScan]
  have opened := none_fails.openFile name
  generalize db.openFile name = outcome at opened ⊢
  split
  · refine Ends.bind opened.2.pool fun b quiet => ?_
    exact (HeapFileScan.construct_status quiet _).bind fun r made => .ok (.of made.1 (opened.2.setPool made.2))
  · exact .ok (.of opened.1 opened.2)

theorem Db.scanNext_status (none_fails : db.NoMismatch) (s : HeapFileScan) :
    Ends (Answers DbAfter) (db.scanNext name s) := by
  rw [Db.scanNext]
  refine Ends.bind none_fails.pool fun b quiet => ?_
  exact (HeapFileScan.scanNext_status quiet s).bind fun r told => .ok ⟨told.1,none_fails.setPool told.2⟩

theorem Db.getRecord_status (s : HeapFileScan) : Ends (fun read => read ≠ .error .attrTypeMismatch)
    (db.getRecord name s) := by
  rw [Db.getRecord]
  refine (Ends.any _).bind fun b _ => ?_
  rw [HeapFileScan.getRecord]
  exact (Ends.any _).bind fun page _ => .ok fun failed => Page.getRecord_error failed rfl

theorem Db.endScan_status (none_fails : db.NoMismatch) (s : HeapFileScan) :
    Ends (Clear DbAfter) (db.endScan name s) := by
  rw [Db.endScan]
  refine Ends.bind none_fails.pool fun b quiet => ?_
  have given := HeapFileScan.endScan_status quiet s
  exact .ok ⟨given.1,none_fails.setPool given.2⟩

theorem Db.deleteHeapFileScan_status (none_fails : db.NoMismatch) (s : HeapFileScan) :
    Ends Db.NoMismatch (db.deleteHeapFileScan name s) := by
  rw [Db.deleteHeapFileScan]
  exact Ends.bind none_fails.pool fun b quiet => .ok (none_fails.setPool (HeapFileScan.destroy_status quiet s))

theorem openRows_status (none_fails : db.NoMismatch) (relation : Name) :
    Ends (Clear DbAfter) (openRows db name relation) := by
  rw [openRows]
  refine (Db.newHeapFileScan_status none_fails).bind fun r made => ?_
  obtain ⟨status,hfs,db1⟩ := r
  dsimp only
  split
  · exact .ok made
  · have started := hfs.startScan_scanned 0 (relation.length + 1) (some .string) (some relation) .eq
    generalize hfs.startScan 0 (relation.length + 1) (some .string) (some relation) .eq = outcome at started ⊢
    split
    · exact (Db.deleteHeapFileScan_status made.2 _).bind fun db2 quiet => .ok (.of started.known quiet)
    · exact .ok (.of (by decide) made.2)

-- The status that ended the loop, or the one that getRecord failed with.
theorem scanRows_status {α : Type} (size : Nat) (visit : α → List UInt8 → α × Bool) (turns : Nat)
    (none_fails : db.NoMismatch)
    (hfs : HeapFileScan) (a : α) :
    Ends (fun r => r.1 ≠ .ok .attrTypeMismatch ∧ r.1 ≠ .error .attrTypeMismatch ∧ r.2.2.2.NoMismatch)
      (scanRows name size visit turns db hfs a) := by
  induction turns generalizing db hfs a with
  | zero => exact .throw _
  | succ turns ih =>
    rw [scanRows]
    refine (Db.scanNext_status none_fails hfs).bind fun r told => ?_
    obtain ⟨result,hfs1,db1⟩ := r
    dsimp only
    split
    · exact .ok ⟨fun same => told.known (Except.ok.inj same),fun same => (by cases same),told.2⟩
    · refine (Db.getRecord_status hfs1).bind fun read sound => ?_
      split
      · exact .ok ⟨fun same => (by cases same),fun same => sound (congrArg _ (Except.error.inj same)),told.2⟩
      · split
        · exact .throw _
        · split
          · exact .ok ⟨fun same => (by cases same),fun same => (by cases same),told.2⟩
          · exact ih told.2 hfs1 _

theorem closeRows_status (none_fails : db.NoMismatch) (hfs : HeapFileScan) {status : Status}
    (known : status ≠ .attrTypeMismatch) :
    Ends (Clear Db.NoMismatch) (closeRows db name hfs status) := by
  rw [closeRows]
  refine (Db.endScan_status none_fails hfs).bind fun r given => ?_
  refine (Db.deleteHeapFileScan_status given.2 r.2.1).bind fun db2 quiet => .ok (.of ?_ quiet)
  split
  · exact given.1
  · exact known

theorem AttrCatalog.getInfo_status (none_fails : db.NoMismatch) (relation attrName : Name) (record : AttrDesc) :
    Ends (Clear DbAfter) (AttrCatalog.getInfo db relation attrName record) := by
  rw [AttrCatalog.getInfo]
  split
  · exact .ok (.of (by decide) none_fails)
  · refine (openRows_status none_fails relation).bind fun r made => ?_
    obtain ⟨status,hfs,db1⟩ := r
    dsimp only
    split
    · exact .ok (.of made.1 made.2)
    · refine (scanRows_status _ _ _ made.2 hfs record).bind fun r told => ?_
      obtain ⟨ended,record1,hfs1,db2⟩ := r
      obtain ⟨normal,failed,quiet⟩ := told
      dsimp only
      split
      · exact .ok (.of (fun same => failed (congrArg _ same)) quiet)
      · rename_i status
        have known : (if status = .fileEof then .attrNotFound else status) ≠ Status.attrTypeMismatch := by
          split
          · decide
          · exact fun same => normal (congrArg _ same)
        exact (closeRows_status quiet hfs1 known).bind fun r closed => .ok (.of closed.1 closed.2)

theorem projDescs_status (infos : List AttrInfo) (none_fails : db.NoMismatch) :
    Ends (Clear DbAfter) (projDescs db infos) := by
  induction infos generalizing db with
  | nil => exact .ok (.of (by decide) none_fails)
  | cons p ps ih =>
    rw [projDescs]
    refine (AttrCatalog.getInfo_status none_fails _ _ _).bind fun r found => ?_
    obtain ⟨status,d,db1⟩ := r
    dsimp only
    split
    · exact .ok (.of found.1 found.2)
    · exact (ih found.2).bind fun r rest => .ok (.of rest.1 rest.2)

theorem Db.holding_noMismatch {stale : Name → Int → Page} {raw : HeapFileScan}
    {tables : List (Name × List (List UInt8))}
    (loads : Db.Loads stale tables) : (Db.holding stale raw tables).NoMismatch := by
  intro name b there
  cases listed : tables.lookup name with
  | none =>
    rw [Db.holding] at there
    dsimp only at there
    rw [listed] at there
    cases there
  | some recs =>
    obtain ⟨shelf,stands,held⟩ := @Db.holding_stands _ raw _ loads
    obtain ⟨file,at_name,_⟩ := held name recs listed
    obtain ⟨_,_,b',found,kept,_⟩ := stands name file at_name
    cases Option.some.inj (there.symm.trans found)
    rw [Pool.NoMismatch,kept.calm]
    exact List.not_mem_nil

end lookups
end Minirel
