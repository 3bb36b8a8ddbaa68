import Minirel.CatalogDrops

namespace Minirel
open ByteMemory SlotDirectory Page Heap

-- What the catalogs are for: which relations have been declared, and with which attributes.
abbrev Schema := Name → Option (List AttrInfo)

namespace Schema

variable {schema : Schema} {relation other : Name} {attrs : List AttrInfo}

-- Each attribute stands in the tuple behind the ones declared before it.
def description (relation : Name) (attrs : List AttrInfo) : List AttrDesc :=
  attrs.mapIdx fun i attr => ⟨relation,attr.attrName,((attrs.take i).map AttrInfo.attrLen).sum,attr.attrType,
    attr.attrLen⟩

def described (schema : Schema) (relation : Name) : List AttrDesc := (schema relation).elim [] (description relation)

-- What the calls answer and declare.
def create (schema : Schema) (relation : Name) (attrs : List AttrInfo) : Status × Schema :=
  if relation = [] ∨ attrs.length < 1 then (.badCatParm,schema)
  else if relation.length ≥ maxName then (.nameTooLong,schema)
  else if schema relation ≠ none then (.relExists,schema)
  else if ¬ (attrs.map AttrInfo.attrName).Nodup then (.duplAttr,schema)
  else if RelCatalog.tupleWidth attrs > pageSize then (.attrTooLong,schema)
  else (.ok,Function.update schema relation (some attrs))

def destroy (schema : Schema) (relation : Name) : Status × Schema :=
  if relation = [] ∨ relation = relCatName ∨ relation = attrCatName then (.badCatParm,schema)
  else if schema relation = none then (.relNotFound,schema)
  else (.ok,Function.update schema relation none)

-- Names as a char array and a string hold them, and ints that do not overflow.
structure Declarable (attrs : List AttrInfo) : Prop where
  count : IsInt attrs.length
  attrNames : ∀ attr ∈ attrs, Fits attr.attrName ∧ attr.attrName ≠ []
  ints : ∀ attr ∈ attrs, IsInt attr.attrType ∧ IsInt attr.attrLen
  offsets : ∀ i, IsInt ((attrs.take i).map AttrInfo.attrLen).sum

-- The rows that say so.
def relRows (schema : Schema) (relation : Name) : List (List UInt8) :=
  (schema relation).elim [] fun attrs => [RelDesc.bytes ⟨relation,attrs.length⟩]

def attrRows (schema : Schema) (relation : Name) : List (List UInt8) := (schema.described relation).map AttrDesc.bytes

theorem describe_mapIdx (relation : Name) (attrs : List AttrInfo) (offset : Int) :
    describe relation attrs offset = attrs.mapIdx fun i attr =>
      ⟨relation,attr.attrName,offset + ((attrs.take i).map AttrInfo.attrLen).sum,attr.attrType,attr.attrLen⟩ := by
  induction attrs generalizing offset with
  | nil => rfl
  | cons attr attrs ih =>
    rw [describe,ih,List.mapIdx_cons]
    simp [Int.add_assoc]

theorem describe_description (relation : Name) (attrs : List AttrInfo) :
    describe relation attrs 0 = description relation attrs := by
  simp only [describe_mapIdx,description,Int.zero_add]

theorem mem_description {d : AttrDesc} (member : d ∈ description relation attrs) :
    d.relName = relation ∧ ∃ attr ∈ attrs, d.attrName = attr.attrName ∧ d.attrType = attr.attrType ∧
      d.attrLen = attr.attrLen ∧
      ∃ i, d.attrOffset = ((attrs.take i).map AttrInfo.attrLen).sum := by
  obtain ⟨i,below,rfl⟩ := List.mem_mapIdx.mp member
  exact ⟨rfl,attrs[i],List.getElem_mem below,rfl,rfl,rfl,i,rfl⟩

theorem description_nonempty (some_attr : attrs ≠ []) : description relation attrs ≠ [] := by
  rw [description,Ne,List.mapIdx_eq_nil_iff]
  exact some_attr

-- The rows read back as what was declared.
theorem Declarable.ofBytes {d : AttrDesc} (declarable : Declarable attrs) (named : Fits relation)
    (member : d ∈ description relation attrs) :
    AttrDesc.ofBytes d.bytes = d := by
  obtain ⟨rel,attr,inside,attrName,type,len,i,offset⟩ := mem_description member
  have ints := declarable.ints attr inside
  exact AttrDesc.ofBytes_bytes (by rw [rel]; exact named) (by rw [attrName]; exact (declarable.attrNames attr inside).1)
    (by rw [offset]; exact declarable.offsets i) (by rw [type]; exact ints.1) (by rw [len]; exact ints.2)

theorem Declarable.ofBytes_all (declarable : Declarable attrs) (named : Fits relation) :
    ((description relation attrs).map AttrDesc.bytes).map AttrDesc.ofBytes = description relation attrs := by
  rw [List.map_map]
  exact (List.map_congr_left fun d member => declarable.ofBytes named member).trans (List.map_id _)

-- Every row carries the name of its relation, which is no other relation's name.
theorem ofRelation_relDesc {count : Int} (named : Fits relation) :
    OfRelation relation (RelDesc.bytes ⟨relation,count⟩) := by
  refine ⟨?_,cstring_padded named.1 named.2 _⟩
  rw [RelDesc.length_bytes]
  exact Nat.lt_trans named.2 (by decide)

theorem ofRelation_attrDesc {d : AttrDesc} (named : Fits d.relName) : OfRelation d.relName d.bytes := by
  refine ⟨?_,?_⟩
  · rw [AttrDesc.length_bytes]
    exact Nat.lt_trans named.2 (by decide)
  · simp only [AttrDesc.bytes,List.append_assoc]
    exact cstring_padded named.1 named.2 _

theorem OfRelation.unique {row : List UInt8} (one : OfRelation relation row) (two : OfRelation other row) :
    other = relation :=
  two.2.symm.trans one.2

end Schema

section listing

variable {db : Db} {shelf shelf' : Shelf} {catalog relation : Name} {size : Nat}
  {listed listed' : Name → List (List UInt8)} {file file' : HeldFile}
  {new : List (List UInt8)}

-- One catalog file, with the rows that it lists for every relation.
structure Lists (shelf : Shelf) (catalog : Name) (size : Nat) (listed : Name → List (List UInt8)) (file : HeldFile) :
    Prop where
  present : shelf catalog = some file
  wide : Rows file.heap size
  rows : ∀ relation, (rows file.heap relation).map Prod.snd = listed relation

theorem Db.Stands.keys_nodup (stands : db.Stands shelf) (present : shelf catalog = some file) :
    ((records file.heap).map Prod.fst).Nodup := by
  obtain ⟨_,_,_,_,_,stored⟩ := stands catalog file present
  exact records_keys_nodup stored.nodup

theorem Lists.rows_nil (lists : Lists shelf catalog size listed file) : Minirel.rows file.heap relation = [] ↔
    listed relation = [] := by
  rw [← lists.rows,List.map_eq_nil_iff]

theorem Lists.elsewhere (lists : Lists shelf catalog size listed file) (same : shelf' catalog = shelf catalog) :
    Lists shelf' catalog size listed file := ⟨same.trans lists.present,lists.wide,lists.rows⟩

theorem Lists.same_records (lists : Lists shelf catalog size listed file) (present : shelf' catalog = some file')
    (same : records file'.heap = records file.heap) : Lists shelf' catalog size listed file' := by
  refine ⟨present,?_,?_⟩
  · intro e member
    exact lists.wide e (same ▸ member)
  · intro relation
    rw [Minirel.rows,same]
    exact lists.rows relation

-- Rows that come and rows that go belong to the one relation.
theorem Lists.gain (lists : Lists shelf catalog size listed file) (stands : db.Stands shelf')
    (present : shelf' catalog = some file')
    (gains : Gains file.heap file'.heap new) (own : ∀ row ∈ new, OfRelation relation row ∧ row.length = size)
    (none_before : listed relation = [])
    (others : ∀ other, other ≠ relation → listed' other = listed other) (now : listed' relation = new) :
    Lists shelf' catalog size listed' file' := by
  refine ⟨present,?_,?_⟩
  · exact gains.forall_records (P:=fun row => row.length = size) (stands.keys_nodup present) lists.wide fun row
      member => (own row member).2
  · intro other
    by_cases here : other = relation
    · subst here
      rw [now]
      exact gains.rows_new (stands.keys_nodup present) (lists.rows_nil.mpr none_before) fun row member =>
        (own row member).1
    · rw [others other here,← lists.rows,gains.rows_other]
      intro row member foreign
      exact here (Schema.OfRelation.unique (own row member).1 foreign)

theorem Lists.lose (lists : Lists shelf catalog size listed file) (present : shelf' catalog = some file')
    (left : records file'.heap = (records file.heap).filter fun e => ¬ OfRelation relation e.2)
    (others : ∀ other, other ≠ relation → listed' other = listed other) (now : listed' relation = []) :
    Lists shelf' catalog size listed' file' := by
  refine ⟨present,?_,?_⟩
  · intro e member
    rw [left] at member
    exact lists.wide e (List.mem_of_mem_filter member)
  · intro other
    have both : Minirel.rows file'.heap other = (Minirel.rows file.heap other).filter fun e => ¬ OfRelation
        relation e.2 := by
      rw [Minirel.rows,left,List.filter_comm]
      rfl
    rw [both]
    by_cases here : other = relation
    · subst here
      rw [now,List.filter_eq_nil_iff.mpr]
      · rfl
      · intro e member
        simpa using (mem_rows.mp member).2
    · rw [others other here,← lists.rows,List.filter_eq_self.mpr]
      intro e member
      have foreign : ¬ OfRelation relation e.2 := fun own => here (Schema.OfRelation.unique own (mem_rows.mp member).2)
      simpa using foreign

-- A catalog that gained a relation's rows and lost them again is what it was.
theorem Gains.lost {heap heap' : Heap} (gains : Gains heap heap' new) (nodup : ((records heap').map Prod.fst).Nodup)
    (own : ∀ row ∈ new, OfRelation relation row) (none_before : Minirel.rows heap relation = []) :
    ((records heap').filter fun e => ¬ OfRelation relation e.2) = records heap := by
  rw [← gains.kept]
  refine List.filter_congr fun e member => decide_eq_decide.mpr ⟨fun foreign => ?_,fun old own => ?_⟩
  · by_contra gained
    refine foreign (own e.2 ?_)
    rw [← gains.gained]
    exact List.mem_map_of_mem (List.mem_filter.mpr ⟨member,decide_eq_true gained⟩)
  · obtain ⟨e',inside,same⟩ := List.mem_map.mp old
    have one : e' = e := List.inj_on_of_nodup_map nodup (gains.mem inside) member same
    have there := mem_rows.mpr ⟨one ▸ inside,own⟩
    rw [none_before] at there
    cases there

end listing
end Minirel
