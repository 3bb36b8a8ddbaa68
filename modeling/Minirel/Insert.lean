import Minirel.HeapRoom
import Minirel.Select
import Minirel.Splice

namespace Minirel
open ByteMemory SlotDirectory Page Heap

-- What val points at. The switch goes by the type of the literal, and leaves val unset for a type
-- that is none of the three; the buffer ends with the last of these bytes.
def insertVal (atof : List UInt8 → List UInt8) (insert : AttrInfo) : Except Abort (List UInt8) :=
  match insert.attrValue,Datatype.ofCode insert.attrType with
  | some value,some .string => .ok (value ++ [0])
  | some value,some .integer => .ok (encode 4 (atoi value))
  | some value,some .float => .ok (bytesAt (atof value) 4)
  | _,_ => .error .undefined

-- attrList[index]: the first value under the attribute's name, or else the one in its place.
def valueFor (attrList : List AttrInfo) (i : Nat) (desc : AttrDesc) : Option AttrInfo :=
  (attrList.find? fun attr => attr.attrName = desc.attrName).or attrList[i]?

-- memcpy(data + desc.attrOffset, val, desc.attrLen)
def copyVal (data val : List UInt8) (desc : AttrDesc) : Except Abort (List UInt8) :=
  if 0 ≤ desc.attrOffset ∧ 0 ≤ desc.attrLen ∧ desc.attrOffset + desc.attrLen ≤ data.length ∧
    desc.attrLen ≤ val.length then
    .ok (Splice.put data ⟨desc.attrOffset.toNat,val.take desc.attrLen.toNat⟩)
  else .error .undefined

-- Populates the record, from the i-th attribute on.
def populate (atof : List UInt8 → List UInt8) (attrList : List AttrInfo) : Nat → List AttrDesc → List UInt8 →
    Except Abort (List UInt8)
  | _,[],data => return data
  | i,desc::attrs,data => do
    let some insert := valueFor attrList i desc | throw .undefined
    let val ← insertVal atof insert
    let data ← copyVal data val desc
    populate atof attrList (i + 1) attrs data

-- The body once rel has been made. stack is what lies where data is put.
def insertInto (atof : List UInt8 → List UInt8) (stack : List UInt8) (db : Db) (relation : Name)
    (attrList : List AttrInfo)
    (rel : InsertFileScan) : Except Abort (Status × InsertFileScan × Db) := do
  let (status,attrs,db) ← AttrCatalog.getRelInfo db relation
  if status ≠ .ok then return (status,rel,db)
  if attrList.length ≠ attrs.length then return (.badCatParm,rel,db)
  let size ← recLen attrs
  if ∃ attr ∈ attrList, attr.attrValue = none then return (.attrNotFound,rel,db)
  let data ← populate atof attrList 0 attrs (bytesAt stack size.toNat)
  let (result,rel,db) ← db.insertRecord relation rel (.of data)
  return (statusOf result,rel,db)

-- rel is on the stack: its destructor runs whatever is returned. One whose file could not be opened
-- has no File to close.
def QU_Insert (atof : List UInt8 → List UInt8) (stack : List UInt8) (db : Db) (relation : Name)
    (attrList : List AttrInfo) :
    Except Abort (Status × Db) := do
  let (status,rel,db) ← db.newInsertFileScan relation
  if status ≠ .ok then
    if relation = [] then throw .undefined
    return (.relNotFound,← db.deleteInsertFileScan relation rel)
  let (status,rel,db) ← insertInto atof stack db relation attrList rel
  return (status,← db.deleteInsertFileScan relation rel)

def width (attrs : List AttrDesc) : Int := (attrs.map AttrDesc.attrLen).sum

-- A relation's attributes lie side by side and fill the tuple.
structure Laid (attrs : List AttrDesc) : Prop where
  inside : ∀ d ∈ attrs, 0 ≤ d.attrOffset ∧ 1 ≤ d.attrLen ∧ d.attrOffset + d.attrLen ≤ width attrs
  apart : attrs.Pairwise fun d e => d.attrOffset + d.attrLen ≤ e.attrOffset ∨ e.attrOffset + e.attrLen ≤ d.attrOffset
  covered : ∀ i, 0 ≤ i → i < width attrs → ∃ d ∈ attrs, d.attrOffset ≤ i ∧ i < d.attrOffset + d.attrLen
  int : width attrs < 2 ^ 31
  some_attr : attrs ≠ []
  names : (attrs.map AttrDesc.attrName).Nodup

-- The checks before anything is copied.
def Checked (attrs : List AttrDesc) (attrList : List AttrInfo) : Prop :=
  attrList.length = attrs.length ∧ ∀ attr ∈ attrList, attr.attrValue ≠ none

instance (attrs : List AttrDesc) (attrList : List AttrInfo) : Decidable (Checked attrs attrList) :=
    inferInstanceAs (Decidable (_ ∧ _))

-- The bytes that go into the record for an attribute, and that there are so many.
def valBytes (atof : List UInt8 → List UInt8) (attrList : List AttrInfo) (i : Nat) (d : AttrDesc) : List UInt8 :=
  ((valueFor attrList i d).bind fun insert => (insertVal atof insert).toOption).getD []

def Reaches (atof : List UInt8 → List UInt8) (attrList : List AttrInfo) (i : Nat) (d : AttrDesc) : Prop :=
  d.attrLen ≤ (valBytes atof attrList i d).length

def Readable (atof : List UInt8 → List UInt8) (attrList : List AttrInfo) (attrs : List AttrDesc) : Prop :=
  ∀ i d, attrs[i]? = some d → Reaches atof attrList i d

def piece (atof : List UInt8 → List UInt8) (attrList : List AttrInfo) (i : Nat) (d : AttrDesc) : Splice.Piece UInt8 :=
  ⟨d.attrOffset.toNat,(valBytes atof attrList i d).take d.attrLen.toNat⟩

def tuple (atof : List UInt8 → List UInt8) (stack : List UInt8) (attrList : List AttrInfo) (attrs : List AttrDesc) :
    List UInt8 :=
  Splice.putAll (bytesAt stack (width attrs).toNat) (attrs.mapIdx (piece atof attrList))

section record

variable {atof : List UInt8 → List UInt8} {attrList : List AttrInfo} {attrs : List AttrDesc} {i : Nat}
  {d : AttrDesc} {data : List UInt8}

theorem insertVal_error {insert : AttrInfo} {a : Abort} (error : insertVal atof insert = .error a) :
    a = .undefined := by
  unfold insertVal at error
  split at error <;> cases error
  rfl

theorem Reaches.value (positive : 1 ≤ d.attrLen) (reaches : Reaches atof attrList i d) :
    ∃ insert, valueFor attrList i d = some insert ∧ insertVal atof insert = .ok (valBytes atof attrList i d) := by
  unfold Reaches valBytes at *
  cases found : valueFor attrList i d with
  | none =>
    simp [found] at reaches
    omega
  | some insert =>
    refine ⟨insert,rfl,?_⟩
    cases told : insertVal atof insert with
    | error a =>
      simp [found,told,Except.toOption] at reaches
      omega
    | ok val => simp [told,Except.toOption]

-- One attribute: its piece goes into the record, or memcpy runs past the end of the literal.
theorem populate_reads (attrs : List AttrDesc) (low : 0 ≤ d.attrOffset) (positive : 1 ≤ d.attrLen)
    (high : d.attrOffset + d.attrLen ≤ data.length)
    (reaches : Reaches atof attrList i d) :
    populate atof attrList i (d::attrs) data = populate atof attrList (i + 1) attrs
      (Splice.put data (piece atof attrList i d)) := by
  obtain ⟨insert,found,told⟩ := reaches.value positive
  have copied : copyVal data (valBytes atof attrList i d) d = .ok (Splice.put data (piece atof attrList i d)) := by
    apply if_pos
    exact ⟨low,by omega,high,reaches⟩
  rw [populate,found]
  dsimp only
  rw [told,ok_bind,copied,ok_bind]

theorem populate_overruns (attrs : List AttrDesc) (data : List UInt8) (short : ¬ Reaches atof attrList i d) :
    populate atof attrList i (d::attrs) data = .error .undefined := by
  rw [populate]
  cases found : valueFor attrList i d with
  | none => rfl
  | some insert =>
    dsimp only
    cases told : insertVal atof insert with
    | error a =>
      rw [insertVal_error told]
      rfl
    | ok val =>
      have same : valBytes atof attrList i d = val := by simp [valBytes,found,told,Except.toOption]
      have beyond : copyVal data val d = .error .undefined := by
        apply if_neg
        rintro ⟨_,_,_,enough⟩
        apply short
        rw [Reaches,same]
        exact enough
      rw [ok_bind,beyond]
      rfl

theorem length_piece (low : 0 ≤ d.attrOffset) (positive : 1 ≤ d.attrLen) (reaches : Reaches atof attrList i d) :
    ((piece atof attrList i d).content.length : Int) = d.attrLen ∧
    ((piece atof attrList i d).stop : Int) = d.attrOffset + d.attrLen := by
  unfold Reaches at reaches
  simp only [piece,Splice.Piece.stop,List.length_take]
  omega

theorem populate_ok (i : Nat) (inside : ∀ d ∈ attrs, 0 ≤ d.attrOffset ∧ 1 ≤ d.attrLen ∧ d.attrOffset + d.attrLen ≤
    data.length)
    (reads : ∀ j d, attrs[j]? = some d → Reaches atof attrList (i + j) d) :
    populate atof attrList i attrs data =
      .ok (Splice.putAll data (attrs.mapIdx fun j => piece atof attrList (i + j))) := by
  induction attrs generalizing i data with
  | nil => rfl
  | cons d rest ih =>
    obtain ⟨low,positive,high⟩ := inside d (List.mem_cons_self ..)
    have first : Reaches atof attrList i d := reads 0 d rfl
    have same : (Splice.put data (piece atof attrList i d)).length = data.length := by
      apply Splice.length_put
      have stop := (length_piece low positive first).2
      omega
    rw [populate_reads rest low positive high first,ih (i + 1),List.mapIdx_cons,Splice.putAll_cons]
    · simp [Nat.add_assoc,Nat.add_comm 1]
    · intro e member
      rw [same]
      exact inside e (List.mem_cons_of_mem _ member)
    · intro j e there
      rw [Nat.add_assoc,Nat.add_comm 1]
      exact reads (j + 1) e there

theorem populate_undefined (i : Nat) (inside : ∀ d ∈ attrs, 0 ≤ d.attrOffset ∧ 1 ≤ d.attrLen ∧
    d.attrOffset + d.attrLen ≤ data.length)
    (short : ¬ ∀ j d, attrs[j]? = some d → Reaches atof attrList (i + j) d) : populate atof attrList i attrs data =
    .error .undefined := by
  induction attrs generalizing i data with
  | nil => exact absurd (fun j d there => by cases there) short
  | cons d rest ih =>
    obtain ⟨low,positive,high⟩ := inside d (List.mem_cons_self ..)
    by_cases first : Reaches atof attrList i d
    · have same : (Splice.put data (piece atof attrList i d)).length = data.length := by
        apply Splice.length_put
        have stop := (length_piece low positive first).2
        omega
      rw [populate_reads rest low positive high first]
      apply ih
      · intro e member
        rw [same]
        exact inside e (List.mem_cons_of_mem _ member)
      · intro all
        apply short
        intro j e there
        cases j with
        | zero =>
          cases there
          exact first
        | succ j =>
          have later := all j e there
          rwa [Nat.add_assoc,Nat.add_comm 1] at later
    · exact populate_overruns rest data first

-- The record that is built when every literal is long enough.
theorem Laid.width_pos (laid : Laid attrs) : 1 ≤ width attrs := by
  obtain ⟨d,member⟩ := List.exists_mem_of_ne_nil attrs laid.some_attr
  have inside := laid.inside d member
  omega

theorem Laid.recLen (laid : Laid attrs) : recLen attrs = .ok (width attrs) := by
  have positive := laid.width_pos
  have bound := laid.int
  unfold width at *
  apply if_neg
  omega

theorem Laid.length_data (laid : Laid attrs) (stack : List UInt8) :
    ((bytesAt stack (width attrs).toNat).length : Int) = width attrs := by
  have positive := laid.width_pos
  rw [length_bytesAt]
  omega

theorem Laid.populates (laid : Laid attrs) (stack : List UInt8) (readable : Readable atof attrList attrs) :
    populate atof attrList 0 attrs (bytesAt stack (width attrs).toNat) = .ok (tuple atof stack attrList attrs) := by
  have inside : ∀ d ∈ attrs, 0 ≤ d.attrOffset ∧ 1 ≤ d.attrLen ∧
      d.attrOffset + d.attrLen ≤ (bytesAt stack (width attrs).toNat).length := by
    rw [laid.length_data]
    exact laid.inside
  have reads : ∀ j d, attrs[j]? = some d → Reaches atof attrList (0 + j) d := by
    simp only [Nat.zero_add]
    exact readable
  rw [populate_ok 0 inside reads,tuple]
  simp only [Nat.zero_add]

theorem Laid.overruns (laid : Laid attrs) (stack : List UInt8) (short : ¬ Readable atof attrList attrs) :
    populate atof attrList 0 attrs (bytesAt stack (width attrs).toNat) = .error .undefined := by
  apply populate_undefined
  · rw [laid.length_data]
    exact laid.inside
  · simp only [Nat.zero_add]
    exact short

theorem mem_pieces {p : Splice.Piece UInt8} (member : p ∈ attrs.mapIdx (piece atof attrList)) :
    ∃ i d, attrs[i]? = some d ∧ d ∈ attrs ∧ p = piece atof attrList i d := by
  obtain ⟨i,below,rfl⟩ := List.mem_mapIdx.mp member
  exact ⟨i,attrs[i],List.getElem?_eq_getElem below,List.getElem_mem below,rfl⟩

theorem Laid.pieces_inside (laid : Laid attrs) (stack : List UInt8) (readable : Readable atof attrList attrs) :
    ∀ p ∈ attrs.mapIdx (piece atof attrList), p.stop ≤ (bytesAt stack (width attrs).toNat).length := by
  intro p member
  obtain ⟨i,d,there,inside,rfl⟩ := mem_pieces member
  obtain ⟨low,positive,high⟩ := laid.inside d inside
  have stop := (length_piece low positive (readable i d there)).2
  have total := laid.length_data stack
  omega

theorem Laid.pieces_apart (laid : Laid attrs) (readable : Readable atof attrList attrs) :
    (attrs.mapIdx (piece atof attrList)).Pairwise Splice.Piece.Apart := by
  rw [List.pairwise_iff_getElem]
  intro i j below_i below_j less
  rw [List.length_mapIdx] at below_i below_j
  have apart := List.pairwise_iff_getElem.mp laid.apart i j below_i below_j less
  have one := laid.inside attrs[i] (List.getElem_mem below_i)
  have two := laid.inside attrs[j] (List.getElem_mem below_j)
  have stop_i := (length_piece one.1 one.2.1 (readable i _ (List.getElem?_eq_getElem below_i))).2
  have stop_j := (length_piece two.1 two.2.1 (readable j _ (List.getElem?_eq_getElem below_j))).2
  simp only [List.getElem_mapIdx,Splice.Piece.Apart]
  have start_i : (piece atof attrList i attrs[i]).start = attrs[i].attrOffset.toNat := rfl
  have start_j : (piece atof attrList j attrs[j]).start = attrs[j].attrOffset.toNat := rfl
  omega

theorem Laid.length_tuple (laid : Laid attrs) (stack : List UInt8) (readable : Readable atof attrList attrs) :
    ((tuple atof stack attrList attrs).length : Int) = width attrs := by
  rw [tuple,Splice.length_putAll (laid.pieces_inside stack readable)]
  exact laid.length_data stack

-- What a reader finds at the attribute's place.
def stored (bytes : List UInt8) (d : AttrDesc) : List UInt8 := Splice.slice bytes d.attrOffset.toNat d.attrLen.toNat

theorem Laid.stored_tuple (laid : Laid attrs) (stack : List UInt8) (readable : Readable atof attrList attrs)
    (there : attrs[i]? = some d) :
    stored (tuple atof stack attrList attrs) d = (valBytes atof attrList i d).take d.attrLen.toNat := by
  have member : piece atof attrList i d ∈ attrs.mapIdx (piece atof attrList) := by
    obtain ⟨below,rfl⟩ := List.getElem?_eq_some_iff.mp there
    exact List.mem_mapIdx.mpr ⟨i,below,rfl⟩
  have inside := laid.inside d (List.mem_of_getElem? there)
  have length := (length_piece inside.1 inside.2.1 (readable i d there)).1
  have same : (piece atof attrList i d).content.length = d.attrLen.toNat := by omega
  have found := Splice.slice_putAll (laid.pieces_inside stack readable) (laid.pieces_apart readable) member
  rw [same] at found
  exact found

-- No byte of the record comes from the stack.
theorem Laid.tuple_stack (laid : Laid attrs) (stack stack' : List UInt8) (readable : Readable atof attrList attrs) :
    tuple atof stack attrList attrs = tuple atof stack' attrList attrs := by
  apply Splice.putAll_covered (laid.pieces_inside stack readable) (laid.pieces_apart readable)
  · simp only [length_bytesAt]
  · intro i below
    have total := laid.length_data stack
    obtain ⟨d,member,low,high⟩ := laid.covered i (Int.natCast_nonneg i) (by omega)
    obtain ⟨j,below_j,rfl⟩ := List.getElem_of_mem member
    have inside := laid.inside attrs[j] member
    have stop := (length_piece inside.1 inside.2.1 (readable j _ (List.getElem?_eq_getElem below_j))).2
    refine ⟨piece atof attrList j attrs[j],List.mem_mapIdx.mpr ⟨j,below_j,rfl⟩,?_,by omega⟩
    change attrs[j].attrOffset.toNat ≤ i
    omega

end record

-- The attributes of a relation as createRel lays them out.
section layout

variable {relation : Name} {attrs : List AttrInfo} {offset : Int} {d : AttrDesc}

theorem width_describe (relation : Name) (attrs : List AttrInfo) (offset : Int) :
    width (describe relation attrs offset) = (attrs.map AttrInfo.attrLen).sum := by
  unfold width
  induction attrs generalizing offset with
  | nil => rfl
  | cons attr rest ih => simp [describe,ih]

theorem names_describe (relation : Name) (attrs : List AttrInfo) (offset : Int) :
    (describe relation attrs offset).map AttrDesc.attrName = attrs.map AttrInfo.attrName := by
  induction attrs generalizing offset with
  | nil => rfl
  | cons attr rest ih => simp [describe,ih]

theorem sum_nonneg (positive : ∀ attr ∈ attrs, 1 ≤ attr.attrLen) : 0 ≤ (attrs.map AttrInfo.attrLen).sum := by
  induction attrs with
  | nil => exact Int.le_refl 0
  | cons attr rest ih =>
    have here := positive attr (List.mem_cons_self ..)
    have later := ih fun attr inside => positive attr (List.mem_cons_of_mem _ inside)
    rw [List.map_cons,List.sum_cons]
    omega

theorem mem_describe (positive : ∀ attr ∈ attrs, 1 ≤ attr.attrLen) (member : d ∈ describe relation attrs offset) :
    offset ≤ d.attrOffset ∧ 1 ≤ d.attrLen ∧ d.attrOffset + d.attrLen ≤ offset + (attrs.map AttrInfo.attrLen).sum := by
  induction attrs generalizing offset with
  | nil => cases member
  | cons attr rest ih =>
    have here := positive attr (List.mem_cons_self ..)
    have later : ∀ attr ∈ rest, 1 ≤ attr.attrLen := fun attr inside => positive attr (List.mem_cons_of_mem _ inside)
    have none_negative := sum_nonneg later
    rw [List.map_cons,List.sum_cons]
    rcases List.mem_cons.mp member with rfl | inside
    · dsimp only
      omega
    · have rest_in := ih later inside
      omega

theorem describe_apart (positive : ∀ attr ∈ attrs, 1 ≤ attr.attrLen) :
    (describe relation attrs offset).Pairwise fun d e => d.attrOffset + d.attrLen ≤ e.attrOffset ∨
    e.attrOffset + e.attrLen ≤ d.attrOffset := by
  induction attrs generalizing offset with
  | nil => exact List.Pairwise.nil
  | cons attr rest ih =>
    have later : ∀ attr ∈ rest, 1 ≤ attr.attrLen := fun attr inside => positive attr (List.mem_cons_of_mem _ inside)
    apply List.Pairwise.cons
    · intro e member
      exact .inl (mem_describe later member).1
    · exact ih later

theorem describe_covers {i : Int} (low : offset ≤ i) (high : i < offset + (attrs.map AttrInfo.attrLen).sum) :
    ∃ d ∈ describe relation attrs offset, d.attrOffset ≤ i ∧ i < d.attrOffset + d.attrLen := by
  induction attrs generalizing offset with
  | nil =>
    simp at high
    omega
  | cons attr rest ih =>
    rw [List.map_cons,List.sum_cons,← Int.add_assoc] at high
    rcases Int.lt_or_le i (offset + attr.attrLen) with here | behind
    · exact ⟨_,List.mem_cons_self ..,low,here⟩
    · obtain ⟨d,member,inside⟩ := ih behind high
      exact ⟨d,List.mem_cons_of_mem _ member,inside⟩

theorem describe_laid (positive : ∀ attr ∈ attrs, 1 ≤ attr.attrLen) (int : (attrs.map AttrInfo.attrLen).sum < 2 ^ 31)
    (some_attr : attrs ≠ [])
    (names : (attrs.map AttrInfo.attrName).Nodup) : Laid (describe relation attrs 0) := by
  refine ⟨?_,describe_apart positive,?_,?_,?_,?_⟩
  · intro d member
    have inside := mem_describe positive member
    rw [width_describe]
    omega
  · intro i low high
    rw [width_describe] at high
    apply describe_covers low
    omega
  · rw [width_describe]
    exact int
  · rw [Schema.describe_description]
    exact Schema.description_nonempty some_attr
  · rw [names_describe]
    exact names

end layout

-- A relation that the catalog describes and that has its heap file.
structure InsertTarget (db : Db) (shelf : Shelf) (cat file : HeldFile) (relation : Name) (attrs : List AttrDesc) :
    Prop where
  stands : db.Stands shelf
  catalog : shelf attrCatName = some cat
  wide : Rows cat.heap AttrDesc.size
  present : shelf relation = some file
  clean : 0 ∉ relation
  listed : attributes cat.heap relation = attrs
  laid : Laid attrs

-- Every way QU_Insert can end: a check fails, memcpy leaves a literal's buffer, or the tuple is
-- given to the heap file.
inductive Inserted (atof : List UInt8 → List UInt8) (stack : List UInt8) (db : Db) (shelf : Shelf)
    (file : HeldFile) (relation : Name)
    (attrs : List AttrDesc) (attrList : List AttrInfo) : Except Abort (Status × Db) → Prop where
  | rejected {status : Status} {db' : Db} (failed : status ≠ .ok) (unchecked : ¬ Checked attrs attrList)
      (stands : db'.Stands shelf) :
      Inserted atof stack db shelf file relation attrs attrList (.ok (status,db'))
  | overrun (checked : Checked attrs attrList) (short : ¬ Readable atof attrList attrs) :
      Inserted atof stack db shelf file relation attrs attrList (.error .undefined)
  | filled {status : Status} {db' : Db} {file' : HeldFile} (checked : Checked attrs attrList)
      (readable : Readable atof attrList attrs)
      (stands : db'.Stands (Function.update shelf relation (some file')))
      (filled : Filled file.heap (tuple atof stack attrList attrs) (db.Takes relation file.heap (width attrs).toNat)
        status file'.heap) :
      Inserted atof stack db shelf file relation attrs attrList (.ok (status,db'))

section target

variable {db : Db} {shelf : Shelf} {cat file : HeldFile} {relation : Name} {attrs : List AttrDesc}

-- The object is open and the catalog has been asked, which may be the file that is inserted into.
theorem InsertTarget.opened (target : InsertTarget db shelf cat file relation attrs) :
    ∃ s before n d b1, ∃ db2 : Db, ∃ b, db.newInsertFileScan relation = .ok (.ok,s,db.setPool relation b1) ∧
      AttrCatalog.getRelInfo (db.setPool relation b1) relation = .ok (.ok,attrs,db2.setPool relation b) ∧
      file.heap = before ++ [(n,d)] ∧ InsertFileScan.Inserting file.books.opened file.recCnt b s before n d ∧
      (db2.setPool relation b).Writes shelf relation file s before n d file.recCnt ∧
      ∃ b0, db.files relation = some b0 ∧ b.file.length = b0.file.length := by
  have holds := target.stands relation file target.present
  obtain ⟨named,owned,b0,found,kept0,_⟩ := id holds
  obtain ⟨b1,s,before,n,d,made,split,inserting1,view1⟩ := Db.newInsertFileScan_view holds found
  have held : db.Stands (Function.update shelf relation (some file)) := by
    rw [← target.present,Function.update_eq_self]
    exact target.stands
  have writes := held.writes named owned inserting1
  have still : ∃ cat', (Function.update shelf relation (some (Db.written file s before n d file.recCnt)) : Shelf)
    attrCatName = some cat' ∧
      cat'.heap = cat.heap := Db.find_opened target.catalog target.present split.symm
  obtain ⟨cat',there,same⟩ := still
  have at_cat := writes.stands attrCatName cat' there
  obtain ⟨b1',found1,_⟩ := at_cat.2.2
  obtain ⟨b2,asked,holds2,view2⟩ := AttrCatalog.getRelInfo_view at_cat found1 (by rw [same]; exact target.wide)
    target.clean named
  have stands2 := writes.stands.same there holds2
  obtain ⟨b,back,inserting⟩ := stands2.resume_insert (Function.update_self ..) writes.there
  rw [same,target.listed,if_neg target.laid.some_attr,back] at asked
  refine ⟨s,before,n,d,b1,_,b,made,asked,split,inserting,?_,b0,found,?_⟩
  · rw [← back]
    exact ⟨stands2,writes.there,named,owned⟩
  · have here := congrArg (fun db : Db => db.files relation) back
    rw [Db.setPool_same] at here
    apply kept0.length_of_view inserting.kept
    by_cases catalog : relation = attrCatName
    · subst catalog
      rw [Db.setPool_same] at here found1
      cases here
      cases found1
      exact view2.trans view1
    · rw [Db.setPool_other _ catalog,Db.setPool_same] at here
      cases here
      exact view1

-- A list that passes the checks and is long enough everywhere matters through its tuple alone.
theorem InsertTarget.QU_Insert_tuple (target : InsertTarget db shelf cat file relation attrs)
    {atof : List UInt8 → List UInt8}
    {stack stack' : List UInt8} {attrList attrList' : List AttrInfo} (checked : Checked attrs attrList)
    (checked' : Checked attrs attrList')
    (readable : Readable atof attrList attrs) (readable' : Readable atof attrList' attrs)
    (same : tuple atof stack attrList attrs = tuple atof stack' attrList' attrs) :
    QU_Insert atof stack db relation attrList = QU_Insert atof stack' db relation attrList' := by
  obtain ⟨s,_,_,_,b1,db2,b,made,asked,_⟩ := target.opened
  have body : ∀ stack attrList, Checked attrs attrList → Readable atof attrList attrs →
      insertInto atof stack (db.setPool relation b1) relation attrList s = (do
        let (result,rel,db) ← (db2.setPool relation b).insertRecord relation s (.of (tuple atof stack attrList attrs))
        return (statusOf result,rel,db)) := by
    intro stack attrList checked readable
    have no_null : ¬ ∃ attr ∈ attrList, attr.attrValue = none := by
      rintro ⟨attr,member,absent⟩
      exact checked.2 attr member absent
    rw [insertInto,asked,ok_bind]
    dsimp only
    rw [if_neg (not_not_intro rfl),if_neg (not_not_intro checked.1),target.laid.recLen,ok_bind,if_neg no_null,
      target.laid.populates stack readable,ok_bind]
  rw [QU_Insert,QU_Insert,made,ok_bind,ok_bind]
  dsimp only
  rw [if_neg (not_not_intro rfl),if_neg (not_not_intro rfl),body stack attrList checked readable,
    body stack' attrList' checked' readable',same]

theorem InsertTarget.QU_Insert_spec (target : InsertTarget db shelf cat file relation attrs)
    (atof : List UInt8 → List UInt8)
    (stack : List UInt8) (attrList : List AttrInfo) :
    Inserted atof stack db shelf file relation attrs attrList (QU_Insert atof stack db relation attrList) := by
  obtain ⟨s,before,n,d,b1,db2,b,made,asked,split,inserting,writes,b0,found,length⟩ := target.opened
  obtain ⟨db3,deleted,stands3⟩ := writes.delete
  have laid := target.laid
  have unchanged : db3.Stands shelf := by
    rw [← split] at stands3
    rwa [← target.present,Function.update_eq_self] at stands3
  rw [QU_Insert,made,ok_bind]
  dsimp only
  rw [if_neg (not_not_intro rfl),insertInto,asked,ok_bind]
  dsimp only
  rw [if_neg (not_not_intro rfl)]
  by_cases count : attrList.length = attrs.length
  swap
  · rw [if_pos count,pure_ok,ok_bind]
    dsimp only
    rw [deleted]
    exact .rejected Status.noConfusion (fun checked => count checked.1) unchanged
  rw [if_neg (not_not_intro count),laid.recLen,ok_bind]
  by_cases null : ∃ attr ∈ attrList, attr.attrValue = none
  · rw [if_pos null,pure_ok,ok_bind]
    dsimp only
    rw [deleted]
    obtain ⟨attr,member,absent⟩ := null
    exact .rejected Status.noConfusion (fun checked => checked.2 attr member absent) unchanged
  rw [if_neg null]
  have checked : Checked attrs attrList := ⟨count,fun attr member absent => null ⟨attr,member,absent⟩⟩
  by_cases readable : Readable atof attrList attrs
  swap
  · rw [laid.overruns stack readable]
    exact .overrun checked readable
  rw [laid.populates stack readable,ok_bind]
  have total := laid.length_tuple stack readable
  have positive := laid.width_pos
  have some_bytes : tuple atof stack attrList attrs ≠ [] := by
    apply List.ne_nil_of_length_pos
    omega
  have int := laid.int
  obtain ⟨result,s',b3,b4,file',ran,closed,stands',filled⟩ :=
    writes.stands.fill writes.named writes.owned inserting split some_bytes (by omega)
  simp only [Db.setPool_setPool] at ran closed stands'
  rw [ran,ok_bind]
  dsimp only
  rw [pure_ok,ok_bind]
  dsimp only
  rw [closed]
  have size : (tuple atof stack attrList attrs).length = (width attrs).toNat := by omega
  rw [← Db.Takes.iff found length,size] at filled
  exact .filled checked readable stands' filled

end target
end Minirel
