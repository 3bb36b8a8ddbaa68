import Minirel.Insert

namespace Minirel
open ByteMemory SlotDirectory Page Heap

-- An attribute's value as the attribute itself represents it; characters are cut or padded with zeros.
def representation (atof : List UInt8 → List UInt8) (d : AttrDesc) (value : List UInt8) : List UInt8 :=
  match Datatype.ofCode d.attrType with
  | some .integer => encode 4 (atoi value)
  | some .float => bytesAt (atof value) 4
  | _ => bytesAt value d.attrLen.toNat

-- Attributes as the interpreter declares them: numbers have four bytes.
def Typed (attrs : List AttrDesc) : Prop :=
  ∀ d ∈ attrs, (Datatype.ofCode d.attrType).isSome ∧ (d.attrType ≠ Datatype.string.code → d.attrLen = 4)

instance (attrs : List AttrDesc) : Decidable (Typed attrs) := inferInstanceAs (Decidable (∀ d ∈ attrs, _ ∧ _))

-- One value for every attribute, of the attribute's type; a string with its terminator has as many
-- bytes as the attribute.
structure Complete (attrs : List AttrDesc) (attrList : List AttrInfo) : Prop where
  names : (attrList.map AttrInfo.attrName).Perm (attrs.map AttrDesc.attrName)
  values : ∀ d ∈ attrs, ∀ attr ∈ attrList, attr.attrName = d.attrName → attr.attrType = d.attrType ∧
    ∃ value, attr.attrValue = some value ∧ (d.attrType = Datatype.string.code → d.attrLen ≤ value.length + 1)

section values

variable {atof : List UInt8 → List UInt8} {attrs : List AttrDesc} {attrList attrList' : List AttrInfo}
  {i : Nat} {d : AttrDesc}
  {attr : AttrInfo} {value : List UInt8}

theorem ofCode_type {type : Datatype} (found : Datatype.ofCode d.attrType = some type) : d.attrType = type.code := by
  unfold Datatype.ofCode at found
  split at found
  · cases found
    assumption
  · split at found
    · cases found
      assumption
    · split at found
      · cases found
        assumption
      · cases found

-- A C string up to and with its terminator, against the bytes padded with zeros.
theorem take_terminated {value : List UInt8} {count : Nat} (enough : count ≤ value.length + 1) :
    (value ++ [0]).take count = bytesAt value count := by
  apply List.ext_getElem
  · simp only [List.length_take,List.length_append,List.length_singleton,length_bytesAt]
    omega
  · intro j below _
    rw [List.length_take] at below
    rcases Nat.lt_or_ge j value.length with inside | behind
    · simp [bytesAt,inside]
    · have last : j = value.length := by omega
      subst last
      simp [bytesAt]

-- A literal of the attribute's own type, and one that is an int for a float.
theorem valBytes_own (typed : Typed attrs) (member : d ∈ attrs) (found : valueFor attrList i d = some attr)
    (given : attr.attrValue = some value) (own : attr.attrType = d.attrType) (reaches : Reaches atof attrList i d) :
    (valBytes atof attrList i d).take d.attrLen.toNat = representation atof d value := by
  obtain ⟨known,four⟩ := typed d member
  obtain ⟨type,is_type⟩ := Option.isSome_iff_exists.mp known
  have code := ofCode_type is_type
  unfold Reaches at reaches
  cases type with
  | string =>
    have bytes : valBytes atof attrList i d = value ++ [0] := by
      simp [valBytes,found,insertVal,given,own,is_type,Except.toOption]
    rw [bytes] at reaches ⊢
    rw [List.length_append,List.length_singleton] at reaches
    rw [take_terminated (by omega),representation,is_type]
  | integer =>
    have bytes : valBytes atof attrList i d = encode 4 (atoi value) := by
      simp [valBytes,found,insertVal,given,own,is_type,Except.toOption]
    rw [bytes,four (by rw [code]; decide),representation,is_type]
    apply List.take_of_length_le
    simp
  | float =>
    have bytes : valBytes atof attrList i d = bytesAt (atof value) 4 := by
      simp [valBytes,found,insertVal,given,own,is_type,Except.toOption]
    rw [bytes,four (by rw [code]; decide),representation,is_type]
    apply List.take_of_length_le
    simp [length_bytesAt]

theorem valBytes_int (atof : List UInt8 → List UInt8) (typed : Typed attrs) (member : d ∈ attrs)
    (found : valueFor attrList i d = some attr)
    (given : attr.attrValue = some value) (int : attr.attrType = Datatype.integer.code)
    (float : d.attrType = Datatype.float.code) :
    (valBytes atof attrList i d).take d.attrLen.toNat = encode 4 (atoi value) ∧
    representation atof d value = bytesAt (atof value) 4 := by
  have is_float : Datatype.ofCode d.attrType = some .float := by rw [float]; decide
  have is_int : Datatype.ofCode attr.attrType = some .integer := by rw [int]; decide
  have bytes : valBytes atof attrList i d = encode 4 (atoi value) := by
    simp [valBytes,found,insertVal,given,is_int,Except.toOption]
  constructor
  · rw [bytes,(typed d member).2 (by rw [float]; decide)]
    apply List.take_of_length_le
    simp
  · rw [representation,is_float]

-- Under distinct names a list is searched in any order.
theorem find_named (nodup : (attrList.map AttrInfo.attrName).Nodup) (member : attr ∈ attrList) :
    (attrList.find? fun a => a.attrName = attr.attrName) = some attr := by
  cases found : attrList.find? fun a => a.attrName = attr.attrName with
  | none => exact absurd (List.find?_eq_none.mp found attr member) (by simp)
  | some a =>
    have same : a.attrName = attr.attrName := by simpa using List.find?_some found
    exact congrArg _ (List.inj_on_of_nodup_map nodup (List.mem_of_find?_eq_some found) member same)

theorem valueFor_named (nodup : (attrList.map AttrInfo.attrName).Nodup) (member : attr ∈ attrList)
    (named : attr.attrName = d.attrName)
    (i : Nat) : valueFor attrList i d = some attr := by
  rw [valueFor,← named,find_named nodup member,Option.some_or]

namespace Complete

theorem nodup (complete : Complete attrs attrList) (laid : Laid attrs) : (attrList.map AttrInfo.attrName).Nodup :=
  complete.names.nodup_iff.mpr laid.names

theorem find (complete : Complete attrs attrList) (member : d ∈ attrs) :
    ∃ attr ∈ attrList, attr.attrName = d.attrName := by
  have named := complete.names.mem_iff.mpr (List.mem_map_of_mem (f:=AttrDesc.attrName) member)
  obtain ⟨attr,inside,same⟩ := List.mem_map.mp named
  exact ⟨attr,inside,same⟩

theorem perm (complete : Complete attrs attrList) (perm : attrList'.Perm attrList) : Complete attrs attrList' := by
  refine ⟨(perm.map _).trans complete.names,?_⟩
  intro d member attr inside
  exact complete.values d member attr (perm.mem_iff.mp inside)

theorem checked (complete : Complete attrs attrList) : Checked attrs attrList := by
  constructor
  · have same := complete.names.length_eq
    rwa [List.length_map,List.length_map] at same
  · intro attr member absent
    have named := complete.names.mem_iff.mp (List.mem_map_of_mem (f:=AttrInfo.attrName) member)
    obtain ⟨d,inside,same⟩ := List.mem_map.mp named
    obtain ⟨_,value,given,_⟩ := complete.values d inside attr member same.symm
    rw [absent] at given
    cases given

theorem readable (complete : Complete attrs attrList) (laid : Laid attrs) (typed : Typed attrs) :
    Readable atof attrList attrs := by
  intro i d there
  have member := List.mem_of_getElem? there
  obtain ⟨attr,inside,named⟩ := complete.find member
  obtain ⟨own,value,given,long⟩ := complete.values d member attr inside named
  obtain ⟨known,four⟩ := typed d member
  have found := valueFor_named (complete.nodup laid) inside named i
  obtain ⟨type,is_type⟩ := Option.isSome_iff_exists.mp known
  have code := ofCode_type is_type
  rw [Reaches]
  cases type with
  | string =>
    have enough := long code
    simp [valBytes,found,insertVal,given,own,is_type,Except.toOption]
    omega
  | integer =>
    rw [four (by rw [code]; decide)]
    simp [valBytes,found,insertVal,given,own,is_type,Except.toOption]
  | float =>
    rw [four (by rw [code]; decide)]
    simp [valBytes,found,insertVal,given,own,is_type,Except.toOption,length_bytesAt]

-- The tuple knows neither the order of the list nor the stack.
theorem tuple_perm (complete : Complete attrs attrList) (laid : Laid attrs) (typed : Typed attrs)
    (order : attrList'.Perm attrList)
    (stack stack' : List UInt8) : tuple atof stack' attrList' attrs = tuple atof stack attrList attrs := by
  rw [laid.tuple_stack stack stack' (complete.readable laid typed),tuple,tuple]
  congr 1
  apply List.ext_getElem
  · simp
  · intro i below _
    rw [List.length_mapIdx] at below
    have member := List.getElem_mem below
    obtain ⟨attr,inside,named⟩ := complete.find member
    have one := valueFor_named (complete.nodup laid) inside named i
    have two := valueFor_named ((complete.perm order).nodup laid) (order.mem_iff.mpr inside) named i
    simp only [List.getElem_mapIdx,piece,valBytes,one,two]

end Complete
end values

section results

variable {atof : List UInt8 → List UInt8} {db : Db} {shelf : Shelf} {cat file : HeldFile} {relation : Name}
  {attrs : List AttrDesc}
  {attrList : List AttrInfo} {stack : List UInt8}

-- R has the int attributes a and b, and S has a.
def attrsR : List AttrDesc := [⟨[82],[97],0,1,4⟩,⟨[82],[98],4,1,4⟩]
def attrsS : List AttrDesc := [⟨[83],[97],0,1,4⟩]

def literal (relation attrName : Name) (type : Datatype) (value : List UInt8) :
    AttrInfo := ⟨relation,attrName,type.code,-1,some value⟩

theorem sampleDb_targets : ∃ shelf cat r s, InsertTarget sampleDb shelf cat r [82] attrsR ∧
    InsertTarget sampleDb shelf cat s [83] attrsS := by
  obtain ⟨shelf,cat,r,s,_,stands,catalog,wide,at_r,at_s,_,_,_,_,listed_r,listed_s⟩ := sampleDb_stands
  have laid_r : Laid attrsR :=
    @describe_laid [82] [⟨[],[97],1,4,none⟩,⟨[],[98],1,4,none⟩] (by decide) (by decide) (by decide) (by decide)
  have laid_s : Laid attrsS := @describe_laid [83] [⟨[],[97],1,4,none⟩] (by decide) (by decide) (by decide) (by decide)
  exact ⟨shelf,cat,r,s,⟨stands,catalog,wide,at_r,by decide,listed_r,laid_r⟩,
    ⟨stands,catalog,wide,at_s,by decide,listed_s,laid_s⟩⟩

-- In whatever order the values of a complete list come, the same record is given to the heap file,
-- every attribute stands in it at its own offset, and the heap file decides.
theorem insert_any_order (atof : List UInt8 → List UInt8) (db : Db) (shelf : Shelf) (cat file : HeldFile)
    (relation : Name)
    (attrs : List AttrDesc) (target : InsertTarget db shelf cat file relation attrs) (typed : Typed attrs)
    (attrList : List AttrInfo)
    (complete : Complete attrs attrList) :
    ∃ record status db' file', (record.length : Int) = width attrs ∧
      (∀ d ∈ attrs, ∀ attr ∈ attrList, attr.attrName = d.attrName → ∀ value, attr.attrValue = some value →
        stored record d = representation atof d value) ∧
      db'.Stands (Function.update shelf relation (some file')) ∧
      Filled file.heap record (db.Takes relation file.heap record.length) status file'.heap ∧
      ∀ attrList', attrList'.Perm attrList → ∀ stack, QU_Insert atof stack db relation attrList' =
        .ok (status,db') := by
  have laid := target.laid
  have checked := complete.checked
  have readable : Readable atof attrList attrs := complete.readable laid typed
  have total := laid.length_tuple [] readable
  have outcome := target.QU_Insert_spec atof [] attrList
  generalize ran : QU_Insert atof [] db relation attrList = result at outcome
  cases outcome with
  | rejected _ unchecked => exact absurd checked unchecked
  | overrun _ short => exact absurd readable short
  | @filled status db' file' _ _ stands filled =>
    refine ⟨tuple atof [] attrList attrs,status,db',file',total,?_,stands,?_,?_⟩
    · intro d member attr inside named value given
      obtain ⟨i,below,rfl⟩ := List.getElem_of_mem member
      have there := List.getElem?_eq_getElem below
      have found := valueFor_named (complete.nodup laid) inside named i
      have own := (complete.values _ member attr inside named).1
      rw [laid.stored_tuple [] readable there]
      exact valBytes_own typed member found given own (readable i _ there)
    · have size : (tuple atof [] attrList attrs).length = (width attrs).toNat := by omega
      rw [size]
      exact filled
    · intro attrList' order stack
      rw [← ran]
      exact target.QU_Insert_tuple (complete.perm order).checked checked ((complete.perm order).readable laid typed)
        readable
        (complete.tuple_perm laid typed order [] stack)

theorem insert_any_order_swapped : ∃ record status db', stored record ⟨[82],[97],0,1,4⟩ = [1,0,0,0] ∧
    stored record ⟨[82],[98],4,1,4⟩ = [2,0,0,0] ∧
    QU_Insert id [] sampleDb [82] [literal [82] [97] .integer [49],literal [82] [98] .integer [50]] = .ok (status,db') ∧
    QU_Insert id [] sampleDb [82] [literal [82] [98] .integer [50],literal [82] [97] .integer [49]] =
      .ok (status,db') := by
  obtain ⟨shelf,cat,r,_,target,_⟩ := sampleDb_targets
  have complete : Complete attrsR [literal [82] [97] .integer [49],literal [82] [98] .integer [50]] := by
    constructor
    · exact List.Perm.refl _
    · simp [attrsR,literal,Datatype.code]
  obtain ⟨record,status,db',_,_,held,_,_,same⟩ := insert_any_order id _ _ _ _ _ _ target (by decide) _ complete
  refine ⟨record,status,db',?_,?_,same _ (List.Perm.refl _) [],same _ (List.Perm.swap ..) []⟩
  · rw [held _ (List.mem_cons_self ..) _ (List.mem_cons_self ..) rfl [49] rfl]
    decide
  · rw [held ⟨[82],[98],4,1,4⟩ (by decide) (literal [82] [98] .integer [50]) (by decide) rfl [50] rfl]
    decide

-- W has five strings of 204 characters, and no page takes the 1020 bytes of a tuple.
def attrsW : List AttrDesc := describe [87] ([97,98,99,100,101].map fun c => ⟨[],[c],0,204,none⟩) 0

def wideTables : List (Name × List (List UInt8)) := [(attrCatName,attrsW.map AttrDesc.bytes),([87],[])]

def wideDb : Db := Db.holding (fun _ _ => zero 1024) ⟨HeapFile.fresh 0 0,none,0,nullRid⟩ wideTables

theorem wideDb_target : ∃ shelf cat w, InsertTarget wideDb shelf cat w [87] attrsW := by
  have loads : Db.Loads (fun _ _ => zero 1024) wideTables := by decide +kernel
  obtain ⟨shelf,stands,listed⟩ := @Db.holding_stands _ ⟨HeapFile.fresh 0 0,none,0,nullRid⟩ _ loads
  obtain ⟨cat,catalog,rows_cat⟩ := listed attrCatName _ rfl
  obtain ⟨w,at_w,_⟩ := listed [87] _ rfl
  have attrs : attributes cat.heap [87] = attrsW := by
    rw [attributes_of_bytes rows_cat]
    decide +kernel
  have laid : Laid attrsW := describe_laid (by decide) (by decide) (by decide) (by decide)
  exact ⟨shelf,cat,w,stands,catalog,rows_of_bytes rows_cat (by decide +kernel),at_w,by decide,attrs,laid⟩

theorem wide_tuple_not_appended : ¬ ∀ (atof : List UInt8 → List UInt8) (db : Db) (shelf : Shelf)
    (cat file : HeldFile) (relation : Name)
    (attrs : List AttrDesc), InsertTarget db shelf cat file relation attrs → Typed attrs →
    ∀ attrList, Complete attrs attrList →
      ∃ record, ∀ attrList', attrList'.Perm attrList →
        ∀ stack, ∃ db' file', QU_Insert atof stack db relation attrList' = .ok (.ok,db') ∧
        db'.Stands (Function.update shelf relation (some file')) ∧ Gains file.heap file'.heap [record] := by
  intro always
  obtain ⟨shelf,cat,w,target⟩ := wideDb_target
  have complete : Complete attrsW ([97,98,99,100,101].map fun c => literal [87] [c] .string
      (List.replicate 204 c)) := by
    constructor
    · exact List.Perm.refl _
    · intro d member attr inside _
      have fixed : ∀ d ∈ attrsW, d.attrType = Datatype.string.code ∧ d.attrLen = 204 := by decide
      obtain ⟨c,_,rfl⟩ := List.mem_map.mp inside
      obtain ⟨string,long⟩ := fixed d member
      refine ⟨string.symm,List.replicate 204 c,rfl,fun _ => ?_⟩
      rw [long,List.length_replicate]
      decide
  obtain ⟨record,appends⟩ := always id _ _ _ _ _ _ target (by decide) _ complete
  obtain ⟨db',_,ran,_⟩ := appends _ (List.Perm.refl _) []
  have outcome := target.QU_Insert_spec id [] ([97,98,99,100,101].map fun c => literal [87] [c] .string
    (List.replicate 204 c))
  rw [ran] at outcome
  cases outcome with
  | rejected failed => exact failed rfl
  | filled _ _ _ filled =>
    cases filled with
    | gained fits => exact absurd fits.1 (by decide)
    | refused failed => exact failed rfl

-- The names of the list are the relation's, each of them once.
def Exact (attrs : List AttrDesc) (attrList : List AttrInfo) :
    Prop := (attrList.map AttrInfo.attrName).Perm (attrs.map AttrDesc.attrName)

instance (attrs : List AttrDesc) (attrList : List AttrInfo) : Decidable (Exact attrs attrList) :=
    inferInstanceAs (Decidable (List.Perm _ _))

-- OK is for exact lists only, and any other list gets an error and leaves the relation's records.
def RejectsWrong (shelf : Shelf) (file : HeldFile) (relation : Name) (attrs : List AttrDesc) (attrList : List AttrInfo)
    (outcome : Except Abort (Status × Db)) : Prop :=
  (∀ db', outcome = .ok (.ok,db') → Exact attrs attrList) ∧
    (¬ Exact attrs attrList → ∃ status db' file', outcome = .ok (status,db') ∧ status ≠ .ok ∧
      db'.Stands (Function.update shelf relation (some file')) ∧ records file'.heap = records file.heap)

-- A list of the right length without NULLs is caught only by the heap file, for its tuple's width.
theorem wrong_list_rejected_iff (atof : List UInt8 → List UInt8) (stack : List UInt8) (db : Db) (shelf : Shelf)
    (cat file : HeldFile)
    (relation : Name) (attrs : List AttrDesc) (target : InsertTarget db shelf cat file relation attrs)
    (attrList : List AttrInfo) :
    RejectsWrong shelf file relation attrs attrList (QU_Insert atof stack db relation attrList) ↔
      Exact attrs attrList ∨ ¬ Checked attrs attrList ∨
        Readable atof attrList attrs ∧ ¬ db.Takes relation file.heap (width attrs).toNat := by
  have outcome := target.QU_Insert_spec atof stack attrList
  generalize QU_Insert atof stack db relation attrList = result at outcome
  by_cases names : Exact attrs attrList
  · exact iff_of_true ⟨fun _ _ => names,fun wrong => absurd names wrong⟩ (.inl names)
  cases outcome with
  | @rejected status db' failed unchecked stands =>
    refine iff_of_true ⟨?_,?_⟩ (.inr (.inl unchecked))
    · intro db'' same
      cases same
      exact absurd rfl failed
    · intro _
      refine ⟨status,db',file,rfl,failed,?_,rfl⟩
      rw [← target.present,Function.update_eq_self]
      exact stands
  | overrun checked short =>
    apply iff_of_false
    · rintro ⟨_,caught⟩
      obtain ⟨_,_,_,same,_⟩ := caught names
      cases same
    · rintro (exact_ | unchecked | ⟨readable,_⟩)
      · exact names exact_
      · exact unchecked checked
      · exact short readable
  | @filled status db' file' checked readable stands filled =>
    cases filled with
    | gained fits gains =>
      apply iff_of_false
      · rintro ⟨only,_⟩
        exact names (only db' rfl)
      · rintro (exact_ | unchecked | ⟨_,full⟩)
        · exact names exact_
        · exact unchecked checked
        · exact full fits
    | refused failed full same =>
      refine iff_of_true ⟨?_,fun _ => ⟨status,db',file',rfl,failed,stands,same⟩⟩ (.inr (.inr ⟨readable,full⟩))
      intro db'' again
      cases again
      exact absurd rfl failed

theorem wrong_list_rejected_iff_short : ∃ shelf r,
    RejectsWrong shelf r [82] attrsR [literal [82] [97] .integer [49]]
      (QU_Insert id [] sampleDb [82] [literal [82] [97] .integer [49]]) := by
  obtain ⟨shelf,cat,r,_,target,_⟩ := sampleDb_targets
  exact ⟨shelf,r,(wrong_list_rejected_iff id [] _ _ _ _ _ _ target _).mpr (.inr (.inl (by decide)))⟩

-- A value under a name that R does not have goes into b.
theorem misspelled_name_accepted : ¬ ∀ (atof : List UInt8 → List UInt8) (stack : List UInt8) (db : Db)
    (shelf : Shelf) (cat file : HeldFile)
    (relation : Name) (attrs : List AttrDesc), InsertTarget db shelf cat file relation attrs → ∀ attrList,
      RejectsWrong shelf file relation attrs attrList (QU_Insert atof stack db relation attrList) := by
  intro always
  obtain ⟨shelf,cat,r,_,target,_⟩ := sampleDb_targets
  obtain ⟨only,_⟩ := always id [] _ _ _ _ _ _ target [literal [82] [97] .integer [49],literal [82] [122] .integer [50]]
  obtain ⟨db',accepted⟩ : ∃ db', QU_Insert id [] sampleDb [82]
    [literal [82] [97] .integer [49],literal [82] [122] .integer [50]] =
      .ok (.ok,db') := Db.exists_ok (by decide +kernel)
  exact absurd (only db' accepted) (by decide)

-- The types that an attribute takes a literal of.
def Compatible (attr : AttrInfo) (d : AttrDesc) : Prop :=
  attr.attrType = d.attrType ∨ attr.attrType = Datatype.integer.code ∧ d.attrType = Datatype.float.code

instance (attr : AttrInfo) (d : AttrDesc) : Decidable (Compatible attr d) := inferInstanceAs (Decidable (_ ∨ _))

-- Every attribute with its literal, the first under its name or the one in its place.
def Matched (attrs : List AttrDesc) (attrList : List AttrInfo) (holds : AttrDesc → AttrInfo → List UInt8 → Prop) :
    Prop :=
  ∀ i d attr value, attrs[i]? = some d → valueFor attrList i d = some attr → attr.attrValue = some value →
    holds d attr value

-- Nothing is read past a literal's buffer, and a list that is accepted has compatible literals only, with
-- a record that holds each of them in its attribute's representation.
def StoresOwn (atof : List UInt8 → List UInt8) (shelf : Shelf) (file : HeldFile) (relation : Name)
    (attrs : List AttrDesc)
    (attrList : List AttrInfo) (outcome : Except Abort (Status × Db)) : Prop :=
  ∃ status db', outcome = .ok (status,db') ∧
    (status = .ok → Matched attrs attrList (fun d attr _ => Compatible attr d) ∧
    ∃ file' record, db'.Stands (Function.update shelf relation (some file')) ∧ Gains file.heap file'.heap [record] ∧
      Matched attrs attrList (fun d _ value => stored record d = representation atof d value))

-- The literal has the attribute's type, or is an int with the bits of its float.
def SameBits (atof : List UInt8 → List UInt8) (d : AttrDesc) (attr : AttrInfo) (value : List UInt8) : Prop :=
  attr.attrType = d.attrType ∨ attr.attrType = Datatype.integer.code ∧ d.attrType = Datatype.float.code ∧
    encode 4 (atoi value) = bytesAt (atof value) 4

theorem SameBits.compatible {d : AttrDesc} {attr : AttrInfo} {value : List UInt8} (same : SameBits atof d attr value) :
    Compatible attr d := by
  rcases same with own | ⟨int,float,_⟩
  · exact .inl own
  · exact .inr ⟨int,float⟩

theorem Laid.same_bits_iff (laid : Laid attrs) (typed : Typed attrs) (stack : List UInt8)
    (readable : Readable atof attrList attrs) :
    (Matched attrs attrList (fun d attr _ => Compatible attr d) ∧
      Matched attrs attrList (fun d _ value => stored (tuple atof stack attrList attrs) d =
        representation atof d value)) ↔
    Matched attrs attrList (SameBits atof) := by
  constructor
  · rintro ⟨compatible,held⟩ i d attr value there found given
    have member := List.mem_of_getElem? there
    rcases compatible i d attr value there found given with own | ⟨int,float⟩
    · exact .inl own
    · have here : stored (tuple atof stack attrList attrs) d = representation atof d value :=
        held i d attr value there found given
      obtain ⟨bytes,wanted⟩ := valBytes_int atof typed member found given int float
      rw [laid.stored_tuple stack readable there,bytes,wanted] at here
      exact .inr ⟨int,float,here⟩
  · intro same
    constructor
    · intro i d attr value there found given
      exact (same i d attr value there found given).compatible
    · intro i d attr value there found given
      have member := List.mem_of_getElem? there
      have placed := laid.stored_tuple stack readable there
      refine placed.trans ?_
      rcases same i d attr value there found given with own | ⟨int,float,bits⟩
      · exact valBytes_own typed member found given own (readable i d there)
      · obtain ⟨bytes,wanted⟩ := valBytes_int atof typed member found given int float
        rw [bytes,wanted,bits]

-- Past the checks, the literals' buffers decide, and then their types, unless the heap file has no
-- room for the tuple.
theorem insert_stores_own_iff (atof : List UInt8 → List UInt8) (stack : List UInt8) (db : Db) (shelf : Shelf)
    (cat file : HeldFile)
    (relation : Name) (attrs : List AttrDesc) (target : InsertTarget db shelf cat file relation attrs)
    (typed : Typed attrs)
    (attrList : List AttrInfo) :
    StoresOwn atof shelf file relation attrs attrList (QU_Insert atof stack db relation attrList) ↔
      ¬ Checked attrs attrList ∨ Readable atof attrList attrs ∧
        (¬ db.Takes relation file.heap (width attrs).toNat ∨ Matched attrs attrList (SameBits atof)) := by
  have laid := target.laid
  have outcome := target.QU_Insert_spec atof stack attrList
  generalize QU_Insert atof stack db relation attrList = result at outcome
  cases outcome with
  | @rejected status db' failed unchecked stands =>
    exact iff_of_true ⟨status,db',rfl,fun fine => absurd fine failed⟩ (.inl unchecked)
  | overrun checked short =>
    apply iff_of_false
    · rintro ⟨_,_,same,_⟩
      cases same
    · rintro (unchecked | ⟨readable,_⟩)
      · exact unchecked checked
      · exact short readable
  | @filled status db' file' checked readable stands filled =>
    cases filled with
    | refused failed full _ =>
      exact iff_of_true ⟨status,db',rfl,fun fine => absurd fine failed⟩ (.inr ⟨readable,.inl full⟩)
    | gained fits gains =>
      constructor
      · rintro ⟨_,_,same,accepted⟩
        cases same
        obtain ⟨compatible,file2,record,stands2,gains2,held⟩ := accepted rfl
        have one := stands.gained_unique (Function.update_self ..) stands2 (Function.update_self ..) gains gains2
        rw [← one] at held
        exact .inr ⟨readable,.inr ((laid.same_bits_iff typed stack readable).mp ⟨compatible,held⟩)⟩
      · rintro (unchecked | ⟨_,full | bits⟩)
        · exact absurd checked unchecked
        · exact absurd fits full
        · obtain ⟨compatible,held⟩ := (laid.same_bits_iff typed stack readable).mpr bits
          exact ⟨.ok,db',rfl,fun _ => ⟨compatible,file',_,stands,gains,held⟩⟩

theorem insert_stores_own_iff_int : ∃ shelf s,
    StoresOwn id shelf s [83] attrsS [literal [83] [97] .integer [53]]
      (QU_Insert id [] sampleDb [83] [literal [83] [97] .integer [53]]) := by
  obtain ⟨shelf,cat,_,s,_,target⟩ := sampleDb_targets
  have complete : Complete attrsS [literal [83] [97] .integer [53]] := by
    constructor
    · exact List.Perm.refl _
    · simp [attrsS,literal,Datatype.code]
  have own : Matched attrsS [literal [83] [97] .integer [53]] (SameBits id) := by
    intro i d attr value there found given
    have member := List.mem_of_getElem? there
    rw [attrsS,List.mem_singleton] at member
    subst member
    cases found
    exact .inl rfl
  have typed : Typed attrsS := by decide
  exact ⟨shelf,s,(insert_stores_own_iff id [] _ _ _ _ _ _ target typed _).mpr
    (.inr ⟨complete.readable target.laid typed,.inr own⟩)⟩

-- The four bytes of the literal "abc" are taken for an int.
theorem string_stored_in_int : ¬ ∀ (atof : List UInt8 → List UInt8) (stack : List UInt8) (db : Db) (shelf : Shelf)
    (cat file : HeldFile)
    (relation : Name) (attrs : List AttrDesc), InsertTarget db shelf cat file relation attrs → Typed attrs → ∀ attrList,
      StoresOwn atof shelf file relation attrs attrList (QU_Insert atof stack db relation attrList) := by
  intro always
  obtain ⟨shelf,cat,_,s,_,target⟩ := sampleDb_targets
  obtain ⟨_,_,same,accepted⟩ := always id [] _ _ _ _ _ _ target (by decide) [literal [83] [97] .string [97,98,99]]
  obtain ⟨db',fine⟩ : ∃ db', QU_Insert id [] sampleDb [83] [literal [83] [97] .string [97,98,99]] = .ok (.ok,db') :=
    Db.exists_ok (by decide +kernel)
  rw [fine] at same
  cases same
  have compatible := (accepted rfl).1 0 ⟨[83],[97],0,1,4⟩ (literal [83] [97] .string [97,98,99]) [97,98,99] rfl rfl rfl
  exact absurd compatible (by decide)

end results
end Minirel
