import Minirel.Sort

namespace Minirel
open ByteMemory SlotDirectory Page Heap

-- The members P and partName; partName is NULL until the files have been opened.
structure Partition where
  P : Nat
  partName : Option (List Name)
  deriving DecidableEq,Repr

namespace Partition

-- "/tmp/" << fileName << '.' << p; Unix does not see the NUL that ends puts behind it.
def nameOf (fileName : Name) (p : Nat) : Name :=
  [47,116,109,112,47] ++ fileName ++ [46] ++ (Nat.toDigits 10 p).map fun digit => UInt8.ofNat digit.toNat

-- for(p = 0; p < P; p++)
def openParts (fileName : Name) : List Nat → Db → Except Abort (Status × List InsertFileScan × Db)
  | [],db => return (.ok,[],db)
  | p::ps,db => do
    let (status,part,db) ← db.newInsertFileScan (nameOf fileName p)
    if status ≠ .ok then return (status,[],db)
    let (status,parts,db) ← openParts fileName ps db
    return (status,part::parts,db)

-- while(1): the records go where hashfcn sends them. An index outside part points nowhere.
def distribute (relName fileName : Name) (hashfcn : Record → Int) :
    Nat → Db → HeapFileScan → List InsertFileScan → Except Abort (Status × HeapFileScan × List InsertFileScan × Db)
  | 0,_,_,_ => throw .diverges
  | turns+1,db,rel,parts => do
    let (next,rel,db) ← db.scanNext relName rel
    match next with
    | .error status => return (if status = .fileEof then .ok else status,rel,parts,db)
    | .ok _ =>
      match ← db.getRecord relName rel with
      | .error status => return (status,rel,parts,db)
      | .ok rec =>
        let p := hashfcn rec
        if p < 0 then throw .undefined
        let some part := parts[p.toNat]? | throw .undefined
        let (inserted,part,db) ← db.insertRecord (nameOf fileName p.toNat) part rec
        let parts := parts.set p.toNat part
        match inserted with
        | .error status => return (status,rel,parts,db)
        | .ok _ => distribute relName fileName hashfcn turns db rel parts

def deleteParts (fileName : Name) : List (Nat × InsertFileScan) → Db → Except Abort Db
  | [],db => return db
  | (p,part)::rest,db => do
    let db ← db.deleteInsertFileScan (nameOf fileName p) part
    deleteParts fileName rest db

-- rel is an object on the file relName, opened by the caller.
def construct (db : Db) (relName : Name) (rel : HeapFileScan) (fileName : Name) (P : Nat) (hashfcn : Record → Int) :
    Except Abort (Status × Partition × HeapFileScan × Db) := do
  let (status,parts,db) ← openParts fileName (List.range P) db
  if status ≠ .ok then return (status,⟨P,none⟩,rel,db)
  let made : Partition := ⟨P,some ((List.range P).map (nameOf fileName))⟩
  let (status,rel) := rel.startScan 0 4 (some .integer) none .eq
  if status ≠ .ok then return (status,made,rel,db)
  let (status,rel,parts,db) ← distribute relName fileName hashfcn (db.turns relName) db rel parts
  if status ≠ .ok then return (status,made,rel,db)
  let db ← deleteParts fileName ((List.range P).zip parts) db
  let (status,rel,db) ← db.endScan relName rel
  return (status,made,rel,db)

-- What is asked of the constructor, for a file of these records.
def Partitions (db : Db) (relName : Name) (rel : HeapFileScan) (fileName : Name) (P : Nat) (hashfcn : Record → Int)
    (recs : List (List UInt8)) : Prop :=
  ∃ rel' db', construct db relName rel fileName P hashfcn =
    .ok (.ok,⟨P,some ((List.range P).map (nameOf fileName))⟩,rel',db') ∧
    ∀ p < P, ∃ k heap recCnt, db'.Holds (nameOf fileName p) k heap recCnt ∧
      (records heap).map Prod.snd = recs.filter fun x => hashfcn (.of x) = p

variable {db db' : Db} {fileName : Name}

theorem openParts_missing {p : Nat} {ps : List Nat} (missing : db.files (nameOf fileName p) = none)
    {status : Status} {parts : List InsertFileScan}
    (opened : openParts fileName (p::ps) db = .ok (status,parts,db')) : status ≠ .ok := by
  have named : nameOf fileName p ≠ [] := by simp [nameOf]
  obtain ⟨⟨status1,part,db1⟩,made,opened⟩ := of_bind_ok opened
  have failed := SortedFile.newInsertFileScan_missing named missing made
  dsimp only at opened
  rw [if_pos failed] at opened
  cases opened
  exact failed

-- Nothing creates the partition files; the first that is not there ends the constructor.
theorem partition_never (db : Db) (relName : Name) (rel : HeapFileScan) (fileName : Name) (P : Nat)
    (some_part : 1 ≤ P) (hashfcn : Record → Int)
    (recs : List (List UInt8)) (missing : ∀ p < P, db.files (nameOf fileName p) = none) :
    ¬ Partitions db relName rel fileName P hashfcn recs := by
  rintro ⟨rel',db',made,_⟩
  obtain ⟨more,rfl⟩ : ∃ more, P = more + 1 := ⟨P - 1,by omega⟩
  obtain ⟨⟨status,parts,db1⟩,opened,made⟩ := of_bind_ok made
  rw [List.range_succ_eq_map] at opened
  have failed := openParts_missing (missing 0 some_part) opened
  dsimp only at made
  rw [if_pos failed] at made
  cases made

theorem partition_never_sample : 1 ≤ 2 ∧ (∀ p < 2, sampleDb.files (nameOf [83] p) = none) ∧
    ¬ Partitions sampleDb [83] sampleDb.raw [83] 2 (fun rec => rec.length % 2) [[1,0,0,0],[3,0,0,0]] := by
  have missing : ∀ p < 2, sampleDb.files (nameOf [83] p) = none := by decide +kernel
  exact ⟨by decide,missing,partition_never sampleDb [83] sampleDb.raw [83] 2 (by decide) _ _ missing⟩

theorem openParts_unixErr {p : Nat} {ps : List Nat} (missing : db.files (nameOf fileName p) = none)
    (clear : db.raw.curPage = none) :
    openParts fileName (p::ps) db = .ok (.unixErr,[],db) := by
  have named : nameOf fileName p ≠ [] := by simp [nameOf]
  have refused : db.openFile (nameOf fileName p) = (.unixErr,db) := by rw [Db.openFile,if_neg named,missing]
  rw [openParts,Db.newInsertFileScan,refused]
  dsimp only
  rw [if_pos clear]
  rfl

-- The relation S by the parity of its first attribute, with the members of the object set to zero.
theorem parts_not_created : ∃ shelf file rel db', SortedFile.sortDb.Stands shelf ∧ shelf [83] = some file ∧
    (records file.heap).map Prod.snd = [[1,0,0,0],[3,0,0,0]] ∧
    SortedFile.sortDb.newHeapFileScan [83] = .ok (.ok,rel,db') ∧
    (∀ p < 2, db'.files (nameOf [83] p) = none) ∧
    construct db' [83] rel [83] 2 (fun rec => (rec.data.headD 0).toNat % 2) = .ok (.unixErr,⟨2,none⟩,rel,db') ∧
    ¬ Partitions db' [83] rel [83] 2 (fun rec => (rec.data.headD 0).toNat % 2) [[1,0,0,0],[3,0,0,0]] := by
  obtain ⟨shelf,_,_,file,_,stands,_,_,_,present,_,_,recs,_⟩ := sampleDb_stands
  have stands' : SortedFile.sortDb.Stands shelf := stands
  obtain ⟨b,rel,c,made,_⟩ := Db.newHeapFileScan_spec (stands' [83] file present)
  have missing : ∀ p < 2, SortedFile.sortDb.files (nameOf [83] p) = none := by decide +kernel
  have apart : ∀ p < 2, nameOf [83] p ≠ [83] := by decide
  have missing' : ∀ p < 2, (SortedFile.sortDb.setPool [83] b).files (nameOf [83] p) = none := fun p below =>
    (Db.setPool_other b (apart p below)).trans (missing p below)
  have failed : construct (SortedFile.sortDb.setPool [83] b) [83] rel [83] 2 (fun rec => (rec.data.headD 0).toNat % 2) =
      .ok (.unixErr,⟨2,none⟩,rel,SortedFile.sortDb.setPool [83] b) := by
    rw [construct,List.range_succ_eq_map,openParts_unixErr (missing' 0 (by decide)) rfl,ok_bind]
    rfl
  refine ⟨shelf,file,rel,_,stands',present,recs,made,missing',failed,?_⟩
  rintro ⟨rel',db',works,_⟩
  rw [failed] at works
  cases works

end Partition
end Minirel
