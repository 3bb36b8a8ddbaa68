import Minirel.Schema

namespace Minirel
open ByteMemory SlotDirectory Page Heap

-- The catalogs list what is declared.
structure Registered (db : Db) (shelf : Shelf) (schema : Schema) : Prop where
  stands : db.Stands shelf
  relCat : ∃ file, Lists shelf relCatName RelDesc.size schema.relRows file
  attrCat : ∃ file, Lists shelf attrCatName AttrDesc.size schema.attrRows file
  declared : ∀ relation attrs, schema relation = some attrs → Fits relation ∧ relation ≠ [] ∧ attrs ≠ [] ∧
    Schema.Declarable attrs

-- A relation has its heap file, which nobody has open, and no other name has a file.
structure Catalogued (db : Db) (shelf : Shelf) (schema : Schema) : Prop where
  stands : db.Stands shelf
  relCat : ∃ file, Lists shelf relCatName RelDesc.size schema.relRows file
  attrCat : ∃ file, Lists shelf attrCatName AttrDesc.size schema.attrRows file
  declared : ∀ relation attrs, schema relation = some attrs → Fits relation ∧ relation ≠ [] ∧ attrs ≠ [] ∧
    Schema.Declarable attrs
  catalogs : schema relCatName ≠ none ∧ schema attrCatName ≠ none
  missing : ∀ relation, schema relation = none → db.files relation = none
  closed : ∀ relation, schema relation ≠ none → relation ≠ relCatName → relation ≠ attrCatName →
    ∃ file, shelf relation = some file ∧ file.books.opens = 0

section lookup

variable {db : Db} {shelf : Shelf} {schema : Schema} {relation : Name} {attrs : List AttrInfo}

namespace Registered

theorem relInfo (registered : Registered db shelf schema) (clean : 0 ∉ relation) (given : relation ≠ [])
    (record : RelDesc) :
    ∃ b, RelCatalog.getInfo db relation record = .ok (if schema relation = none then .relNotFound else .ok,
        (schema relation).elim record fun attrs => ⟨relation,attrs.length⟩,db.setPool relCatName b) ∧
      ∃ file, shelf relCatName = some file ∧ (db.setPool relCatName b).Holds relCatName file.books file.heap
        file.recCnt := by
  obtain ⟨file,lists⟩ := registered.relCat
  obtain ⟨b,asked,holds⟩ := RelCatalog.getInfo_spec (registered.stands _ file lists.present) lists.wide clean
    given record
  refine ⟨b,?_,file,lists.present,holds⟩
  have rows_of := lists.rows relation
  rw [asked]
  cases there : schema relation with
  | none =>
    rw [Schema.relRows,there,Option.elim_none,List.map_eq_nil_iff] at rows_of
    rw [rows_of]
    rfl
  | some attrs =>
    obtain ⟨named,_,_,declarable⟩ := registered.declared relation attrs there
    rw [Schema.relRows,there,Option.elim_some] at rows_of
    obtain ⟨e,single,bytes⟩ := List.map_eq_singleton_iff.mp rows_of
    rw [single,List.head?_cons,Option.map_some,Option.getD_some,bytes,RelDesc.ofBytes_bytes named declarable.count]
    rfl

theorem attributes_described (registered : Registered db shelf schema) {file : HeldFile}
    (lists : Lists shelf attrCatName AttrDesc.size schema.attrRows file) (relation : Name) :
    attributes file.heap relation = schema.described relation := by
  have rows_of : attributes file.heap relation = ((rows file.heap relation).map Prod.snd).map AttrDesc.ofBytes := by
    rw [attributes,List.map_map]
    rfl
  rw [rows_of,lists.rows,Schema.attrRows,Schema.described]
  cases there : schema relation with
  | none => rfl
  | some attrs =>
    obtain ⟨named,_,_,declarable⟩ := registered.declared relation attrs there
    exact declarable.ofBytes_all named

theorem attrsGiven (registered : Registered db shelf schema) {d : AttrDesc} (member : d ∈ schema.described relation) :
    d.attrName ≠ [] := by
  cases there : schema relation with
  | none =>
    rw [Schema.described,there] at member
    cases member
  | some attrs =>
    rw [Schema.described,there,Option.elim_some] at member
    obtain ⟨_,attr,inside,same,_⟩ := Schema.mem_description member
    rw [same]
    exact ((registered.declared relation attrs there).2.2.2.attrNames attr inside).2

theorem described_nil (registered : Registered db shelf schema) : schema.described relation = [] ↔
    schema relation = none := by
  cases there : schema relation with
  | none => exact iff_of_true (by rw [Schema.described,there]; rfl) rfl
  | some attrs =>
    refine iff_of_false ?_ (Option.some_ne_none _)
    rw [Schema.described,there]
    exact Schema.description_nonempty (registered.declared relation attrs there).2.2.1

theorem attrInfo {attrName : Name} (registered : Registered db shelf schema) (clean : 0 ∉ relation)
    (given : relation ≠ [])
    (attr_given : attrName ≠ []) (record : AttrDesc) :
    ∃ b, AttrCatalog.getInfo db relation attrName record =
        .ok (if ((schema.described relation).find? fun d => d.attrName = attrName).isSome then .ok else .attrNotFound,
          ((schema.described relation).find? fun d => d.attrName = attrName).getD
          ((schema.described relation).getLast?.getD record),
          db.setPool attrCatName b) ∧
      ∃ file, shelf attrCatName = some file ∧ (db.setPool attrCatName b).Holds attrCatName file.books file.heap
        file.recCnt := by
  obtain ⟨file,lists⟩ := registered.attrCat
  obtain ⟨b,asked,holds⟩ := AttrCatalog.getInfo_spec (registered.stands _ file lists.present) lists.wide
    clean given attr_given record
  refine ⟨b,?_,file,lists.present,holds⟩
  rw [asked,attrOf,registered.attributes_described lists]

end Registered

namespace Catalogued

theorem registered (catalogued : Catalogued db shelf schema) : Registered db shelf schema :=
  ⟨catalogued.stands,catalogued.relCat,catalogued.attrCat,catalogued.declared⟩

-- A catalog that was asked is as it was.
theorem same {catalog : Name} {b : Pool} (catalogued : Catalogued db shelf schema) (there : schema catalog ≠ none)
    (holds : ∃ file, shelf catalog = some file ∧ (db.setPool catalog b).Holds catalog file.books file.heap
      file.recCnt) :
    Catalogued (db.setPool catalog b) shelf schema := by
  obtain ⟨file,present,holds⟩ := holds
  refine ⟨catalogued.stands.same present holds,catalogued.relCat,catalogued.attrCat,catalogued.declared,
    catalogued.catalogs,?_,
    catalogued.closed⟩
  intro relation undeclared
  have apart : relation ≠ catalog := fun here => there (here ▸ undeclared)
  rw [Db.setPool_other b apart]
  exact catalogued.missing relation undeclared

theorem relInfo (catalogued : Catalogued db shelf schema) (clean : 0 ∉ relation) (given : relation ≠ [])
    (record : RelDesc) :
    ∃ b, RelCatalog.getInfo db relation record = .ok (if schema relation = none then .relNotFound else .ok,
        (schema relation).elim record fun attrs => ⟨relation,attrs.length⟩,db.setPool relCatName b) ∧
      Catalogued (db.setPool relCatName b) shelf schema := by
  obtain ⟨b,asked,holds⟩ := catalogued.registered.relInfo clean given record
  exact ⟨b,asked,catalogued.same catalogued.catalogs.1 holds⟩

theorem relAttrs (catalogued : Catalogued db shelf schema) (clean : 0 ∉ relation) (given : relation ≠ []) :
    ∃ b, AttrCatalog.getRelInfo db relation = .ok (if schema relation = none then .relNotFound else .ok,
      schema.described relation,
        db.setPool attrCatName b) ∧ Catalogued (db.setPool attrCatName b) shelf schema := by
  obtain ⟨file,lists⟩ := catalogued.attrCat
  obtain ⟨b,asked,holds⟩ := AttrCatalog.getRelInfo_spec (catalogued.stands _ file lists.present) lists.wide clean given
  refine ⟨b,?_,catalogued.same catalogued.catalogs.2 ⟨file,lists.present,holds⟩⟩
  rw [asked,catalogued.registered.attributes_described lists]
  simp only [catalogued.registered.described_nil]

theorem attrInfo {attrName : Name} (catalogued : Catalogued db shelf schema) (clean : 0 ∉ relation)
    (given : relation ≠ [])
    (attr_given : attrName ≠ []) (record : AttrDesc) :
    ∃ b, AttrCatalog.getInfo db relation attrName record =
        .ok (if ((schema.described relation).find? fun d => d.attrName = attrName).isSome then .ok else .attrNotFound,
          ((schema.described relation).find? fun d => d.attrName = attrName).getD
          ((schema.described relation).getLast?.getD record),
          db.setPool attrCatName b) ∧ Catalogued (db.setPool attrCatName b) shelf schema := by
  obtain ⟨b,asked,holds⟩ := catalogued.registered.attrInfo clean given attr_given record
  exact ⟨b,asked,catalogued.same catalogued.catalogs.2 holds⟩

end Catalogued

end lookup

-- What createRel does once its checks have passed.
def RelCatalog.enter (db : Db) (relation : Name) (attrs : List AttrInfo) : Except Abort (Status × Db) := do
  let (status,db) ← addInfo db ⟨relation,attrs.length⟩
  if status ≠ .ok then return (status,db)
  let (status,db) ← addAttributes relation attrs 0 db
  if status ≠ .ok then return (status,db)
  db.createHeapFile relation

-- Nothing has been done, or relcat has been asked for the relation.
def RelCatalog.Asked (db db' : Db) (relation : Name) : Prop := db' = db ∨ ∃ r, getInfo db relation ⟨[],0⟩ = .ok r ∧
    r.2.2 = db'

-- A relation's rows have come into both catalogs.
structure Entered (shelf shelf' : Shelf) (relation : Name) (attrs : List AttrInfo) : Prop where
  relCat : ∀ file, shelf relCatName = some file →
    ∃ file', shelf' relCatName = some file' ∧ Gains file.heap file'.heap [RelDesc.bytes ⟨relation,attrs.length⟩]
  attrCat : ∀ file, shelf attrCatName = some file →
    ∃ file', shelf' attrCatName = some file' ∧
      Gains file.heap file'.heap ((Schema.description relation attrs).map AttrDesc.bytes)

-- Whoever uses the catalogs goes on using them.
def SameCatalogBooks (shelf shelf' : Shelf) : Prop :=
  (shelf' relCatName).map HeldFile.books = (shelf relCatName).map HeldFile.books ∧
    (shelf' attrCatName).map HeldFile.books = (shelf attrCatName).map HeldFile.books

namespace Db

variable {db : Db} {shelf : Shelf} {catalog name : Name} {file : HeldFile} {heap : Heap} {new : List (List UInt8)}

theorem Stands.gained (stands : db.Stands shelf) (present : shelf catalog = some file) :
    Gained db shelf catalog file.heap [] := by
  obtain ⟨_,_,before,n,d,_,split,_⟩ := Db.newInsertFileScan_spec (stands catalog file present)
  exact ⟨stands,file,before,n,d,present,split,Appending.start split⟩

def empty (hdr n : Int) : HeldFile := ⟨{Pool.Books.unused with first := hdr},[(n,[])],0⟩

-- A name without a file gets an empty heap file, which is closed.
theorem createHeapFile_missing (named : name ≠ []) (missing : db.files name = none) :
    ∃ b hdr n, db.createHeapFile name = .ok (.ok,db.setPool name b) ∧
      (db.setPool name b).Holds name (empty hdr n).books (empty hdr n).heap (empty hdr n).recCnt := by
  obtain ⟨hdr,n,b,created,kept,stored⟩ := createHeapFile_spec (db.stale name) name
  have owned : ({Pool.Books.unused with first := hdr} : Pool.Books).Owned := fun _ marked => False.elim marked
  refine ⟨b,hdr,n,?_,holds_setPool named owned kept stored⟩
  have closed : db.openFile name = (.unixErr,db) := by rw [openFile,if_neg named,missing]
  have made : db.createFile name = (.ok,db.setPool name ⟨File.create,fun _ => none,0,db.stale name,[]⟩) := by
    rw [createFile,if_neg named,missing]
  have opened : (db.setPool name ⟨File.create,fun _ => none,0,db.stale name,[]⟩).openFile name =
      (.ok,db.setPool name (Pool.created (db.stale name))) := by
    rw [openFile_found named (setPool_same ..),setPool_setPool]
    rfl
  rw [createHeapFile,closed]
  dsimp only
  rw [made]
  dsimp only
  rw [opened]
  dsimp only
  rw [pool_setPool,ok_bind,created,ok_bind,setPool_setPool]
  rfl

theorem destroyHeapFile_closed (named : name ≠ []) (holds : db.Holds name file.books file.heap file.recCnt)
    (closed : file.books.opens = 0) :
    db.destroyHeapFile name = (.ok,{db with files := Function.update db.files name none}) := by
  obtain ⟨_,_,b,found,kept,_⟩ := holds
  rw [destroyHeapFile,destroyFile,if_neg named,found]
  dsimp only
  rw [if_neg]
  rw [kept.opens,closed]
  exact Nat.lt_irrefl 0

theorem Stands.remove (stands : db.Stands shelf) (name : Name) :
    ({db with files := Function.update db.files name none} : Db).Stands (Function.update shelf name none) := by
  intro other found there
  by_cases here : other = name
  · subst here
    rw [Function.update_self] at there
    cases there
  · rw [Function.update_of_ne here] at there
    obtain ⟨named,owned,b,at_other,rest⟩ := stands other found there
    exact ⟨named,owned,b,(Function.update_of_ne here ..).trans at_other,rest⟩

end Db

namespace Schema

variable {schema : Schema} {relation other : Name} {attrs : List AttrInfo}

theorem described_update (change : Option (List AttrInfo)) (apart : other ≠ relation) :
    described (Function.update schema relation change) other = schema.described other := by
  rw [described,Function.update_of_ne apart,described]

theorem relRows_update (change : Option (List AttrInfo)) (apart : other ≠ relation) :
    relRows (Function.update schema relation change) other = schema.relRows other := by
  rw [relRows,Function.update_of_ne apart,relRows]

theorem attrRows_update (change : Option (List AttrInfo)) (apart : other ≠ relation) :
    attrRows (Function.update schema relation change) other = schema.attrRows other := by
  rw [attrRows,described_update change apart,attrRows]

end Schema

namespace Catalogued

variable {db db' : Db} {shelf shelf' : Shelf} {schema : Schema} {relation : Name} {attrs : List AttrInfo}

-- The rows are in both catalogs, and the relation's own file has been made beside them.
theorem entered {file : HeldFile} (catalogued : Catalogued db shelf schema) (stands : db'.Stands shelf')
    (entered : Entered shelf shelf' relation attrs)
    (named : Fits relation) (given : relation ≠ []) (some_attr : attrs ≠ []) (declarable : Schema.Declarable attrs)
    (undeclared : schema relation = none) (own : shelf' relation = some file) (closed : file.books.opens = 0)
    (beside : ∀ other, other ≠ relation → other ≠ relCatName → other ≠ attrCatName →
      db'.files other = db.files other ∧ shelf' other = shelf other) :
    Catalogued db' shelf' (Function.update schema relation (some attrs)) := by
  obtain ⟨rc,rels⟩ := catalogued.relCat
  obtain ⟨ac,attrLists⟩ := catalogued.attrCat
  obtain ⟨rc',at_rel,gains_rel⟩ := entered.relCat rc rels.present
  obtain ⟨ac',at_attr,gains_attr⟩ := entered.attrCat ac attrLists.present
  have kept : ∀ other, schema other ≠ none → Function.update schema relation (some attrs) other ≠ none := by
    intro other there
    by_cases here : other = relation
    · rw [here,Function.update_self]
      exact Option.some_ne_none _
    · rwa [Function.update_of_ne here]
  refine ⟨stands,⟨rc',?_⟩,⟨ac',?_⟩,?_,⟨kept _ catalogued.catalogs.1,kept _ catalogued.catalogs.2⟩,?_,?_⟩
  · refine rels.gain stands at_rel gains_rel ?_ (by rw [Schema.relRows,undeclared]; rfl)
      (fun other => Schema.relRows_update _)
      (by rw [Schema.relRows,Function.update_self]; rfl)
    intro row member
    rw [List.mem_singleton.mp member]
    exact ⟨Schema.ofRelation_relDesc named,RelDesc.length_bytes _⟩
  · refine attrLists.gain stands at_attr gains_attr ?_ (by rw [Schema.attrRows,Schema.described,undeclared]; rfl)
      (fun other => Schema.attrRows_update _) (by rw [Schema.attrRows,Schema.described,Function.update_self]; rfl)
    intro row member
    obtain ⟨d,inside,rfl⟩ := List.mem_map.mp member
    have rel := (Schema.mem_description inside).1
    exact ⟨rel ▸ Schema.ofRelation_attrDesc (rel ▸ named),AttrDesc.length_bytes d⟩
  · intro other attrs' there
    by_cases here : other = relation
    · rw [here,Function.update_self] at there
      cases there
      exact here ▸ ⟨named,given,some_attr,declarable⟩
    · rw [Function.update_of_ne here] at there
      exact catalogued.declared other attrs' there
  · intro other there
    by_cases here : other = relation
    · rw [here,Function.update_self] at there
      cases there
    · rw [Function.update_of_ne here] at there
      rw [(beside other here (fun cat => catalogued.catalogs.1 (cat ▸ there))
        (fun cat => catalogued.catalogs.2 (cat ▸ there))).1]
      exact catalogued.missing other there
  · intro other there not_rel not_attr
    by_cases here : other = relation
    · exact here ▸ ⟨file,own,closed⟩
    · rw [Function.update_of_ne here] at there
      rw [(beside other here not_rel not_attr).2]
      exact catalogued.closed other there not_rel not_attr

theorem enter_spec (catalogued : Catalogued db shelf schema) (named : Fits relation) (given : relation ≠ [])
    (some_attr : attrs ≠ [])
    (declarable : Schema.Declarable attrs) (undeclared : schema relation = none) :
    ∃ status db', RelCatalog.enter db relation attrs = .ok (status,db') ∧
      (status = .unixErr ∨ status = .ok ∧ ∃ shelf', Catalogued db' shelf'
        (Function.update schema relation (some attrs)) ∧
        Entered shelf shelf' relation attrs ∧ (∃ hdr n, shelf' relation = some (Db.empty hdr n)) ∧
        (∀ other, other ≠ relation → other ≠ relCatName → other ≠ attrCatName → shelf' other = shelf other) ∧
        SameCatalogBooks shelf shelf') := by
  obtain ⟨rc,rels⟩ := catalogued.relCat
  obtain ⟨ac,attrLists⟩ := catalogued.attrCat
  have not_rel : relation ≠ relCatName := fun here => catalogued.catalogs.1 (here ▸ undeclared)
  have not_attr : relation ≠ attrCatName := fun here => catalogued.catalogs.2 (here ▸ undeclared)
  have apart : attrCatName ≠ relCatName := by decide
  obtain ⟨status1,b1,rc1,books1,added,told⟩ :=
    addRow_gains (catalogued.stands.gained rels.present) (RelDesc.bytes_ne_nil ⟨relation,attrs.length⟩)
      (by rw [RelDesc.length_bytes]; decide)
  rw [RelCatalog.enter,RelCatalog.addInfo,added,ok_bind]
  dsimp only
  rcases told with ⟨rfl,gained_rel⟩ | ⟨rfl,_⟩
  swap
  · exact ⟨.unixErr,_,rfl,.inl rfl⟩
  rw [if_neg (not_not_intro rfl)]
  have at_attr : Function.update shelf relCatName (some rc1) attrCatName = some ac := by
    rw [Function.update_of_ne apart]
    exact attrLists.present
  obtain ⟨status2,db2,shelf2,attrs_added,beside,books2,told⟩ := addAttributes_gains relation 0
    (gained_rel.stands.gained at_attr) fun attr member => (declarable.attrNames attr member).1.2
  rw [attrs_added,ok_bind]
  dsimp only
  rcases told with ⟨rfl,gained_attr⟩ | rfl
  swap
  · exact ⟨.unixErr,_,rfl,.inl rfl⟩
  rw [if_neg (not_not_intro rfl)]
  have missing : db2.files relation = none := by
    rw [(beside relation not_attr).1,Db.setPool_other _ not_rel]
    exact catalogued.missing relation undeclared
  obtain ⟨b3,hdr,n,created,holds⟩ := Db.createHeapFile_missing given missing
  have stands3 := gained_attr.stands.put (Db.empty hdr n) holds
  refine ⟨.ok,db2.setPool relation b3,created,.inr ⟨rfl,Function.update shelf2 relation (some (Db.empty hdr n)),?_⟩⟩
  have rows_in : Entered shelf (Function.update shelf2 relation (some (Db.empty hdr n))) relation attrs := by
    constructor
    · intro file present
      obtain ⟨_,file1,before,m,d,at_rel,split,appending⟩ := gained_rel
      cases Option.some.inj (present.symm.trans rels.present)
      refine ⟨file1,?_,split ▸ appending.gains⟩
      rw [Function.update_of_ne (Ne.symm not_rel),(beside relCatName (Ne.symm apart)).2]
      exact at_rel
    · intro file present
      obtain ⟨_,file2,before,m,d,at_attr2,split,appending⟩ := gained_attr
      cases Option.some.inj (present.symm.trans attrLists.present)
      refine ⟨file2,?_,?_⟩
      · rw [Function.update_of_ne (Ne.symm not_attr)]
        exact at_attr2
      · rw [← Schema.describe_description,split]
        exact appending.gains
  have aside : ∀ other, other ≠ relation → other ≠ relCatName → other ≠ attrCatName →
      (db2.setPool relation b3).files other = db.files other ∧
      Function.update shelf2 relation (some (Db.empty hdr n)) other = shelf other := by
    intro other here not_rel' not_attr'
    rw [Db.setPool_other _ here,Function.update_of_ne here,(beside other not_attr').1,(beside other not_attr').2,
      Db.setPool_other _ not_rel',
      Function.update_of_ne not_rel']
    exact ⟨rfl,rfl⟩
  refine ⟨catalogued.entered stands3 rows_in named given some_attr declarable undeclared
    (Function.update_self ..) rfl aside,rows_in,
    ⟨hdr,n,Function.update_self ..⟩,fun other here not_rel' not_attr' => (aside other here not_rel' not_attr').2,?_⟩
  constructor
  · rw [Function.update_of_ne (Ne.symm not_rel),(beside relCatName (Ne.symm apart)).2,Function.update_self,
      Option.map_some,books1]
  · rw [Function.update_of_ne (Ne.symm not_attr),books2,Function.update_of_ne apart]

-- createRel refuses, or the checks have passed.
theorem createRel_cases (catalogued : Catalogued db shelf schema) (clean : 0 ∉ relation) (attrs : List AttrInfo) :
    ∃ db', RelCatalog.Asked db db' relation ∧ Catalogued db' shelf schema ∧
     ((RelCatalog.createRel db relation attrs = .ok ((schema.create relation attrs).1,db') ∧
        (schema.create relation attrs).1 ≠ .ok ∧ (schema.create relation attrs).2 = schema) ∨
      RelCatalog.createRel db relation attrs = RelCatalog.enter db' relation attrs ∧ Fits relation ∧
        relation ≠ [] ∧ attrs ≠ [] ∧ schema relation = none ∧
      RelCatalog.tupleWidth attrs ≤ pageSize ∧ schema.create relation attrs =
        (.ok,Function.update schema relation (some attrs))) := by
  rw [RelCatalog.createRel,Schema.create]
  by_cases parm : relation = [] ∨ attrs.length < 1
  · rw [if_pos parm,if_pos parm]
    exact ⟨db,.inl rfl,catalogued,.inl ⟨rfl,Status.noConfusion,rfl⟩⟩
  rw [if_neg parm,if_neg parm]
  obtain ⟨given,some_attr⟩ := not_or.mp parm
  by_cases long : relation.length ≥ maxName
  · rw [if_pos long,if_pos long]
    exact ⟨db,.inl rfl,catalogued,.inl ⟨rfl,Status.noConfusion,rfl⟩⟩
  rw [if_neg long,if_neg long]
  obtain ⟨b,asked,catalogued1⟩ := catalogued.relInfo clean given ⟨[],0⟩
  refine ⟨_,.inr ⟨_,asked,rfl⟩,catalogued1,?_⟩
  rw [asked,ok_bind]
  dsimp only
  by_cases undeclared : schema relation = none
  swap
  · rw [if_neg undeclared,if_pos rfl,if_pos undeclared]
    exact .inl ⟨rfl,Status.noConfusion,rfl⟩
  rw [if_pos undeclared,if_neg Status.noConfusion,if_neg (not_not_intro rfl),if_neg (not_not_intro undeclared)]
  by_cases nodup : (attrs.map AttrInfo.attrName).Nodup
  swap
  · rw [if_pos nodup,if_pos nodup]
    exact .inl ⟨rfl,Status.noConfusion,rfl⟩
  rw [if_neg (not_not_intro nodup),if_neg (not_not_intro nodup)]
  by_cases wide : RelCatalog.tupleWidth attrs > pageSize
  · rw [if_pos wide,if_pos wide]
    exact .inl ⟨rfl,Status.noConfusion,rfl⟩
  rw [if_neg wide,if_neg wide]
  have nonempty : attrs ≠ [] := by
    rintro rfl
    exact some_attr Nat.zero_lt_one
  exact .inr ⟨rfl,⟨clean,Nat.lt_of_not_le long⟩,given,nonempty,undeclared,Int.not_lt.mp wide,rfl⟩

theorem createRel_spec (catalogued : Catalogued db shelf schema) (clean : 0 ∉ relation)
    (declarable : RelCatalog.tupleWidth attrs ≤ pageSize → Schema.Declarable attrs) :
    ∃ status db', RelCatalog.createRel db relation attrs = .ok (status,db') ∧
      (status = .unixErr ∨ status = (schema.create relation attrs).1 ∧
      ∃ shelf', Catalogued db' shelf' (schema.create relation attrs).2 ∧
        (status = .ok → Entered shelf shelf' relation attrs)) := by
  obtain ⟨db1,_,catalogued1,⟨ran,refused,same⟩ | ⟨ran,named,given,some_attr,undeclared,narrow,created⟩⟩ :=
    catalogued.createRel_cases clean attrs
  · refine ⟨_,db1,ran,.inr ⟨rfl,shelf,?_,fun fine => absurd fine refused⟩⟩
    rw [same]
    exact catalogued1
  · obtain ⟨status,db',done,told⟩ := catalogued1.enter_spec named given some_attr (declarable narrow) undeclared
    rw [ran,created]
    refine ⟨status,db',done,told.imp id ?_⟩
    rintro ⟨rfl,shelf',catalogued',rows_in,_⟩
    exact ⟨rfl,shelf',catalogued',fun _ => rows_in⟩

end Catalogued
end Minirel
