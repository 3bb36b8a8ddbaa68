import Minirel.Aliases
import Minirel.LookupStatus

namespace Minirel
open ByteMemory SlotDirectory Page Heap

inductive JoinType where
  | nlJoin | smJoin | hashJoin
  deriving DecidableEq,Repr

-- Neither of these two goes on to join anything.
def QU_SM_Join (db : Db) (attr1 attr2 : AttrInfo) : Status × Db :=
  if attr1.attrType ≠ attr2.attrType ∨ attr1.attrLen ≠ attr2.attrLen then (.attrTypeMismatch,db) else (.ok,db)

def QU_Hash_Join (db : Db) (attr1 attr2 : AttrInfo) : Status × Db :=
  if attr1.attrType ≠ attr2.attrType ∨ attr1.attrLen ≠ attr2.attrLen then (.attrTypeMismatch,db) else (.ok,db)

def QU_Join (joinMethod : JoinType) (turns : Nat) (db : Db) (result : Name) (projNames : List AttrInfo)
    (attr1 : AttrInfo) (op : Operator)
    (attr2 : AttrInfo) : Except Abort (Status × Db) :=
  if joinMethod = .nlJoin ∨ joinMethod = .hashJoin ∧ op ≠ .eq then QU_NL_Join turns db result projNames attr1 op attr2
  else if joinMethod = .smJoin then .ok (QU_SM_Join db attr1 attr2)
  else .ok (QU_Hash_Join db attr1 attr2)

-- interp fills in -1 for the types and lengths of both attributes.
theorem joinArguments_untyped {tables : List TableRef} {select : List QualAttr} {joinattr1 joinattr2 : QualAttr}
    {infos : List AttrInfo}
    {attr1 attr2 : AttrInfo} (args : joinArguments tables select joinattr1 joinattr2 = some (infos,attr1,attr2)) :
    attr1.attrType = -1 ∧ attr2.attrType = -1 ∧ attr1.attrLen = -1 ∧ attr2.attrLen = -1 := by
  rw [joinArguments] at args
  obtain ⟨attrs,_,args⟩ := Option.bind_eq_some_iff.mp args
  obtain ⟨a1,_,args⟩ := Option.bind_eq_some_iff.mp args
  obtain ⟨a2,_,args⟩ := Option.bind_eq_some_iff.mp args
  obtain ⟨attrs',_,args⟩ := Option.bind_eq_some_iff.mp args
  cases args
  exact ⟨rfl,rfl,rfl,rfl⟩

section statuses

-- The loops end with the status of an inner startScan or with OK; every other failure leaves them by
-- an assertion.
variable {outer inner result : Name} {descs : List AttrDesc} {d1 d2 : AttrDesc} {op : Operator} {db : Db}

theorem joinOuter_scanned {turns : Nat} {outerRec : Record} {rel : InsertFileScan} :
    Ends Scanned (joinOuter outer inner result descs d1 d2 op turns db outerRec rel) := by
  rw [joinOuter]
  refine (Ends.any _).bind fun r _ => ?_
  obtain ⟨opened,innerScan,db1⟩ := r
  dsimp only
  split
  · exact .throw _
  · have started := innerScan.startScan_scanned d2.attrOffset d2.attrLen (Datatype.ofCode d2.attrType)
      (some (outerRec.data.drop d1.attrOffset.toNat)) op.mirror
    generalize innerScan.startScan d2.attrOffset d2.attrLen (Datatype.ofCode d2.attrType)
      (some (outerRec.data.drop d1.attrOffset.toNat)) op.mirror = outcome at started ⊢
    split
    · exact (Ends.any _).bind fun db2 _ => .ok started
    · split
      · exact .throw _
      · exact (Ends.any _).bind fun r _ => (Ends.any _).bind fun db3 _ => .ok (.inl rfl)

theorem outerLoop_scanned {innerTurns turns : Nat} {s : HeapFileScan} {rel : InsertFileScan} :
    Ends Scanned (outerLoop outer inner result descs d1 d2 op innerTurns turns db s rel) := by
  induction turns generalizing db s rel with
  | zero => exact .throw _
  | succ turns ih =>
    rw [outerLoop]
    refine (Ends.any _).bind fun r _ => ?_
    obtain ⟨next,s1,db1⟩ := r
    dsimp only
    split
    · exact .ok (.inl rfl)
    · refine (Ends.any _).bind fun read _ => ?_
      split
      · exact .throw _
      · refine joinOuter_scanned.bind fun r told => ?_
        obtain ⟨status,rel1,db2⟩ := r
        dsimp only
        split
        · exact .ok told
        · exact ih

theorem joinScan_scanned {turns : Nat} : Ends Scanned (joinScan turns db result descs d1 d2 op) := by
  rw [joinScan]
  refine (Ends.any _).bind fun r _ => ?_
  obtain ⟨made,rel,db1⟩ := r
  dsimp only
  split
  · exact .throw _
  · refine (Ends.any _).bind fun r _ => ?_
    obtain ⟨opened,s,db2⟩ := r
    dsimp only
    split
    · exact .throw _
    · refine outerLoop_scanned.bind fun r told => ?_
      exact (Ends.any _).bind fun db4 _ => (Ends.any _).bind fun db5 _ => .ok told

end statuses

variable {db : Db} {attr1 attr2 : AttrInfo}

theorem QU_NL_Join_status (turns : Nat) (none_fails : db.NoMismatch) (result : Name) (infos : List AttrInfo)
    (op : Operator)
    (types : attr1.attrType = attr2.attrType) (lengths : attr1.attrLen = attr2.attrLen) :
    Ends (fun r => r.1 ≠ .attrTypeMismatch) (QU_NL_Join turns db result infos attr1 op attr2) := by
  have passed : ¬ (attr1.attrType ≠ attr2.attrType ∨ attr1.attrLen ≠ attr2.attrLen) := by simp [types,lengths]
  rw [QU_NL_Join,if_neg passed]
  refine (projDescs_status infos none_fails).bind fun r found => ?_
  obtain ⟨status,descs,db1⟩ := r
  dsimp only
  split
  · exact .ok found.1
  · refine (AttrCatalog.getInfo_status found.2 _ _ _).bind fun r found1 => ?_
    obtain ⟨status1,d1,db2⟩ := r
    dsimp only
    split
    · exact .ok found1.1
    · refine (AttrCatalog.getInfo_status found1.2 _ _ _).bind fun r found2 => ?_
      obtain ⟨status2,d2,db3⟩ := r
      dsimp only
      split
      · exact .ok found2.1
      · exact (Ends.any _).bind fun total _ r joined => (joinScan_scanned r joined).known

-- Whatever the method, attributes that interp has filled in pass the check.
theorem QU_Join_status (joinMethod : JoinType) (turns : Nat) (none_fails : db.NoMismatch) (result : Name)
    (infos : List AttrInfo) (op : Operator)
    (types : attr1.attrType = attr2.attrType) (lengths : attr1.attrLen = attr2.attrLen) :
    Ends (fun r => r.1 ≠ .attrTypeMismatch) (QU_Join joinMethod turns db result infos attr1 op attr2) := by
  have passed : ¬ (attr1.attrType ≠ attr2.attrType ∨ attr1.attrLen ≠ attr2.attrLen) := by simp [types,lengths]
  have fine : Status.ok ≠ .attrTypeMismatch := by decide
  rw [QU_Join]
  split
  · exact QU_NL_Join_status turns none_fails result infos op types lengths
  · split
    · rw [QU_SM_Join,if_neg passed]
      exact .ok fine
    · rw [QU_Hash_Join,if_neg passed]
      exact .ok fine

-- The catalog's entry for an attribute.
def Described (db : Db) (info : AttrInfo) (d : AttrDesc) : Prop :=
  ∃ db', AttrCatalog.getInfo db info.relName info.attrName ⟨[],[],0,0,0⟩ = .ok (.ok,d,db')

def SameType (d1 d2 : AttrDesc) : Prop := d1.attrType = d2.attrType ∧ d1.attrLen = d2.attrLen

-- Attributes that the catalog describes differently are refused, and the result gains nothing.
def TypeChecked (db : Db) (result : Name) (attr1 attr2 : AttrInfo) (outcome : Except Abort (Status × Db)) : Prop :=
  ∀ d1 d2, Described db attr1 d1 → Described db attr2 d2 → ¬ SameType d1 d2 →
    ∃ db', outcome = .ok (.attrTypeMismatch,db') ∧ db'.contents result = db.contents result

-- No join statement has its attributes' types checked.
theorem join_type_checked_iff (db : Db) (none_fails : db.NoMismatch) (tables : List TableRef) (select : List QualAttr)
    (joinattr1 joinattr2 : QualAttr) (infos : List AttrInfo) (attr1 attr2 : AttrInfo)
    (args : joinArguments tables select joinattr1 joinattr2 = some (infos,attr1,attr2)) (joinMethod : JoinType)
    (turns : Nat) (result : Name)
    (op : Operator) :
    TypeChecked db result attr1 attr2 (QU_Join joinMethod turns db result infos attr1 op attr2) ↔
      ∀ d1 d2, Described db attr1 d1 → Described db attr2 d2 → SameType d1 d2 := by
  obtain ⟨type1,type2,length1,length2⟩ := joinArguments_untyped args
  constructor
  · intro checked d1 d2 found1 found2
    by_contra differ
    obtain ⟨db',refused,_⟩ := checked d1 d2 found1 found2 differ
    exact QU_Join_status joinMethod turns none_fails result infos op (type1.trans type2.symm)
      (length1.trans length2.symm) _ refused rfl
  · intro agree d1 d2 found1 found2 differ
    exact absurd (agree d1 d2 found1 found2) differ

-- R with an integer a, S with a string b of one byte; T is empty.
def mixedTables : List (Name × List (List UInt8)) :=
  [(attrCatName,[AttrDesc.bytes ⟨[82],[97],0,1,4⟩,AttrDesc.bytes ⟨[83],[98],0,0,1⟩]),([82],[[49,0,0,0]]),
    ([83],[[49]]),([84],[])]

def mixedDb : Db := Db.holding (fun _ _ => zero 1024) ⟨HeapFile.fresh 0 0,none,0,nullRid⟩ mixedTables

theorem mixedTables_load : Db.Loads (fun _ _ => zero 1024) mixedTables := by decide +kernel

theorem Described.of_read {info : AttrInfo} {d : AttrDesc}
    (read : (AttrCatalog.getInfo db info.relName info.attrName ⟨[],[],0,0,0⟩).toOption.map (fun r => (r.1,r.2.1)) =
      some (.ok,d)) :
    Described db info d := by
  rw [Described]
  cases ran : AttrCatalog.getInfo db info.relName info.attrName ⟨[],[],0,0,0⟩ with
  | error abort =>
    rw [ran] at read
    cases read
  | ok result =>
    rw [ran] at read
    obtain ⟨status,d',db'⟩ := result
    cases read
    exact ⟨db',rfl⟩

theorem mixedDb_described : Described mixedDb ⟨[82],[97],-1,-1,none⟩ ⟨[82],[97],0,1,4⟩ ∧
    Described mixedDb ⟨[83],[98],-1,-1,none⟩ ⟨[83],[98],0,0,1⟩ :=
  ⟨.of_read (by decide +kernel),.of_read (by decide +kernel)⟩

theorem join_type_checked_iff_sample : ∃ infos attr1 attr2,
    joinArguments [⟨[82],none⟩,⟨[83],none⟩] [⟨some [82],[97]⟩] ⟨some [82],[97]⟩ ⟨some [83],[98]⟩ =
      some (infos,attr1,attr2) ∧
    ∀ joinMethod turns op, ¬ TypeChecked mixedDb [84] attr1 attr2
      (QU_Join joinMethod turns mixedDb [84] infos attr1 op attr2) := by
  have args : joinArguments [⟨[82],none⟩,⟨[83],none⟩] [⟨some [82],[97]⟩] ⟨some [82],[97]⟩ ⟨some [83],[98]⟩ =
      some ([⟨[82],[97],-1,-1,none⟩],⟨[82],[97],-1,-1,none⟩,⟨[83],[98],-1,-1,none⟩) := by decide
  refine ⟨_,_,_,args,fun joinMethod turns op checked => ?_⟩
  obtain ⟨of_a,of_b⟩ := mixedDb_described
  have same := (join_type_checked_iff mixedDb (Db.holding_noMismatch mixedTables_load) _ _ _ _ _ _ _ args
    joinMethod turns [84] op).mp checked
    _ _ of_a of_b
  exact absurd same.1 (by decide)

-- SELECT R.a INTO T FROM R, S WHERE R.a = S.b: the first byte of the integer is compared with the string,
-- and T gains the integer.
theorem mixed_types_joined : ∃ infos attr1 attr2 d1 d2 db',
    joinArguments [⟨[82],none⟩,⟨[83],none⟩] [⟨some [82],[97]⟩] ⟨some [82],[97]⟩ ⟨some [83],[98]⟩ =
      some (infos,attr1,attr2) ∧
    Described mixedDb attr1 d1 ∧ Described mixedDb attr2 d2 ∧ ¬ SameType d1 d2 ∧ mixedDb.contents [84] = .ok [] ∧
    QU_Join .nlJoin 3 mixedDb [84] infos attr1 .eq attr2 = .ok (.ok,db') ∧ db'.contents [84] = .ok [[49,0,0,0]] ∧
    ∀ joinMethod, ¬ TypeChecked mixedDb [84] attr1 attr2 (QU_Join joinMethod 3 mixedDb [84] infos attr1 .eq attr2) := by
  obtain ⟨of_a,of_b⟩ := mixedDb_described
  have differ : ¬ SameType ⟨[82],[97],0,1,4⟩ ⟨[83],[98],0,0,1⟩ := fun same => absurd same.1 (by decide)
  obtain ⟨db',joined,gained⟩ := Db.exists_ok_contents
    (by decide +kernel : ((QU_Join .nlJoin 3 mixedDb [84] [⟨[82],[97],-1,-1,none⟩]
    ⟨[82],[97],-1,-1,none⟩ .eq ⟨[83],[98],-1,-1,none⟩).toOption.bind fun r =>
      (r.2.contents [84]).toOption.map fun recs => (r.1,recs)) =
      some (.ok,[[49,0,0,0]]))
  obtain ⟨shelf,stands,held⟩ := @Db.holding_stands _ ⟨HeapFile.fresh 0 0,none,0,nullRid⟩ _ mixedTables_load
  obtain ⟨t,at_t,recs⟩ := held [84] _ rfl
  have empty : mixedDb.contents [84] = .ok [] := (Db.contents_spec stands at_t).trans (congrArg _ recs)
  refine ⟨_,_,_,_,_,db',by decide,of_a,of_b,differ,empty,joined,gained,fun joinMethod checked => ?_⟩
  obtain ⟨db1,refused,_⟩ := checked _ _ of_a of_b differ
  cases joinMethod with
  | nlJoin => cases joined.symm.trans refused
  | smJoin => cases refused
  | hashJoin => cases refused

end Minirel
