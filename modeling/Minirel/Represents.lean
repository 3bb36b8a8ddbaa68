import Minirel.CatalogQueries
import Minirel.CatalogObjects
import Minirel.Database

namespace Minirel
open ByteMemory SlotDirectory Page Heap Db Interp Database

-- An attribute as the interpreter declares it.
structure Usable (attr : AttrInfo) : Prop where
  type : (Datatype.ofCode attr.attrType).isSome
  narrow : 1 ≤ attr.attrLen ∧ attr.attrLen ≤ 255
  four : attr.attrType ≠ Datatype.string.code → attr.attrLen = 4

namespace Usable

theorem like {attr attr' : AttrInfo} (usable : Usable attr) (type : attr'.attrType = attr.attrType)
    (len : attr'.attrLen = attr.attrLen) :
    Usable attr' := by
  obtain ⟨known,narrow,four⟩ := usable
  rw [← type] at known four
  rw [← len] at narrow four
  exact ⟨known,narrow,four⟩

theorem int {attr : AttrInfo} (usable : Usable attr) : IsInt attr.attrType := by
  obtain ⟨type,code⟩ := Option.isSome_iff_exists.mp usable.type
  have same : attr.attrType = type.code := ofCode_type (d:=⟨[],[],0,attr.attrType,0⟩) code
  rw [same]
  exact code_int type

end Usable

theorem parseFormatString_sizes {format : Int} {type : Datatype} {len : Int}
    (parsed : parseFormatString format = some (type,len)) :
    (1 ≤ len ∧ len ≤ 255) ∧ (type ≠ .string → len = 4) := by
  unfold parseFormatString at parsed
  split_ifs at parsed with int real string
  · cases parsed
    exact ⟨⟨by omega,by omega⟩,fun _ => rfl⟩
  · cases parsed
    exact ⟨⟨by omega,by omega⟩,fun _ => rfl⟩
  · cases parsed
    exact ⟨⟨string.2,string.1⟩,fun other => absurd rfl other⟩

theorem createArguments_usable {relation : Name} {attrlist : List (Name × Int)} {infos : List AttrInfo}
    (made : createArguments relation attrlist = .ok (.ok infos)) : ∀ info ∈ infos, Usable info := by
  intro info member
  obtain ⟨a,_,type,_,_,is_type,parsed⟩ := (createArguments_formatted made).2 info member
  obtain ⟨narrow,four⟩ := parseFormatString_sizes parsed
  refine ⟨by rw [is_type]; cases type <;> rfl,narrow,fun number => four fun string => number ?_⟩
  rw [is_type,string]

structure Table.Sound (table : Table) : Prop where
  usable : ∀ attr ∈ table.attrs, Usable attr
  few : table.attrs.length ≤ maxAttrs
  names : (table.attrs.map AttrInfo.attrName).Nodup
  wide : ∀ t ∈ table.tuples, (t.length : Int) = (table.attrs.map AttrInfo.attrLen).sum

section tuples

variable {relation : Name} {attrs : List AttrInfo} {table : Table} {atof : List UInt8 → List UInt8}
  {attrList : List AttrInfo} {descs : List AttrDesc}

theorem width_description (relation : Name) (attrs : List AttrInfo) :
    width (Schema.description relation attrs) = (attrs.map AttrInfo.attrLen).sum := by
  rw [← Schema.describe_description,width_describe]

-- Its attributes, one behind the other, are the whole tuple.
theorem projection_describe (lens : ∀ attr ∈ attrs, 1 ≤ attr.attrLen) (offset : Nat) (bytes : List UInt8)
    (length : (bytes.length : Int) = offset + (attrs.map AttrInfo.attrLen).sum) :
    projection (describe relation attrs offset) bytes = bytes.drop offset := by
  induction attrs generalizing offset with
  | nil =>
    rw [List.map_nil,List.sum_nil,Int.add_zero] at length
    rw [List.drop_eq_nil_of_le (by omega)]
    rfl
  | cons attr attrs ih =>
    rw [List.map_cons,List.sum_cons] at length
    have positive := lens attr (List.mem_cons_self ..)
    obtain ⟨len,is_len⟩ := Int.eq_ofNat_of_zero_le (by omega : 0 ≤ attr.attrLen)
    have behind := ih (fun a member => lens a (List.mem_cons_of_mem _ member)) (offset + len)
      (by rw [length,is_len]; push_cast; omega)
    rw [describe,projection,List.flatMap_cons]
    rw [projection] at behind
    have next : (offset : Int) + attr.attrLen = ((offset + len : Nat) : Int) := by rw [is_len]; push_cast; rfl
    rw [next,behind,is_len]
    change (bytes.drop offset).take len ++ bytes.drop (offset + len) = bytes.drop offset
    rw [← List.drop_drop,List.take_append_drop]

theorem projection_whole (relation : Name) (lens : ∀ attr ∈ attrs, 1 ≤ attr.attrLen) (bytes : List UInt8)
    (length : (bytes.length : Int) = (attrs.map AttrInfo.attrLen).sum) :
    projection (Schema.description relation attrs) bytes = bytes := by
  rw [← Schema.describe_description]
  exact projection_describe lens 0 bytes (by rw [length]; exact (Int.zero_add _).symm)

theorem Complete.stored_tuple {d : AttrDesc} (complete : Complete descs attrList) (laid : Laid descs)
    (typed : Typed descs) (stack : List UInt8)
    (member : d ∈ descs) : stored (tuple atof stack attrList descs) d =
      representation atof d (((attrList.find? fun attr => attr.attrName = d.attrName).bind AttrInfo.attrValue).getD
        []) := by
  obtain ⟨attr,inside,named⟩ := complete.find member
  obtain ⟨own,value,given,_⟩ := complete.values d member attr inside named
  obtain ⟨i,below,rfl⟩ := List.getElem_of_mem member
  have there := List.getElem?_eq_getElem below
  have readable : Readable atof attrList descs := complete.readable laid typed
  have nodup := complete.nodup laid
  rw [laid.stored_tuple stack readable there,← named,find_named nodup inside,Option.bind_some,given,Option.getD_some]
  exact valBytes_own typed member (valueFor_named nodup inside named i) given own (readable i _ there)

-- What QU_Insert builds is the row that the list describes.
theorem Complete.tuple_rowOf (complete : Complete (Schema.description relation attrs) attrList)
    (laid : Laid (Schema.description relation attrs))
    (typed : Typed (Schema.description relation attrs)) (lens : ∀ attr ∈ attrs, 1 ≤ attr.attrLen) (stack : List UInt8) :
    tuple atof stack attrList (Schema.description relation attrs) =
      rowOf atof (Schema.description relation attrs) attrList := by
  have readable : Readable atof attrList (Schema.description relation attrs) := complete.readable laid typed
  have size := laid.length_tuple stack readable
  rw [width_description] at size
  rw [← projection_whole relation lens _ size,projection,rowOf]
  exact List.flatMap_congr fun d member => complete.stored_tuple laid typed stack member

namespace Table.Sound

theorem lens (sound : table.Sound) : ∀ attr ∈ table.attrs, 1 ≤ attr.attrLen := fun attr member =>
    (sound.usable attr member).narrow.1

theorem laid (sound : table.Sound) (some_attr : table.attrs ≠ []) (relation : Name) :
    Laid (Schema.description relation table.attrs) := by
  have bound : (table.attrs.map AttrInfo.attrLen).sum ≤ (table.attrs.map AttrInfo.attrLen).length • (255 : Int) := by
    refine List.sum_le_card_nsmul _ _ fun len member => ?_
    obtain ⟨attr,inside,rfl⟩ := List.mem_map.mp member
    exact (sound.usable attr inside).narrow.2
  have few := sound.few
  have capacity : maxAttrs = 40 := rfl
  rw [List.length_map,nsmul_eq_mul] at bound
  rw [← Schema.describe_description]
  exact describe_laid sound.lens (by omega) some_attr sound.names

theorem typed (sound : table.Sound) (relation : Name) : Typed (Schema.description relation table.attrs) := by
  intro d member
  obtain ⟨_,attr,inside,_,type,len,_⟩ := Schema.mem_description member
  have usable := sound.usable attr inside
  rw [type,len]
  exact ⟨usable.type,usable.four⟩

-- The attributes lie inside the tuples.
theorem inside (sound : table.Sound) (some_attr : table.attrs ≠ []) {t : List UInt8} (member : t ∈ table.tuples)
    {d : AttrDesc}
    (listed : d ∈ Schema.description relation table.attrs) : Inside d t := by
  obtain ⟨low,positive,high⟩ := (sound.laid some_attr relation).inside d listed
  rw [width_description,← sound.wide t member] at high
  exact ⟨low,positive,high⟩

end Table.Sound

end tuples

theorem Schema.create_checked {schema : Schema} {relation : Name} {attrs : List AttrInfo}
    (fine : (schema.create relation attrs).1 = .ok) :
    1 ≤ attrs.length ∧ (attrs.map AttrInfo.attrName).Nodup := by
  unfold create at fine
  split_ifs at fine with parm long known nodup wide
  exact ⟨Nat.le_of_not_lt (not_or.mp parm).2,nodup⟩

theorem Schema.destroy_ok {schema : Schema} {relation : Name} (fine : (schema.destroy relation).1 = .ok) :
    User relation ∧ schema relation ≠ none := by
  unfold destroy at fine
  split_ifs at fine with parm known
  exact ⟨not_or.mp (not_or.mp parm).2,known⟩

-- The files of a directory hold what the tables of a database say. The objects that use the catalogs
-- are not those of a statement.
structure Represents (users : Name → Option HeapFile) (db : Db) (shelf : Shelf) (D : Database) : Prop where
  catalogued : Catalogued db shelf D.schema
  tables : ∀ name table, D.tables name = some table → ∃ file, shelf name = some file ∧ file.heap.bag = table.tuples
  sound : ∀ name table, D.tables name = some table → table.Sound
  itself : D.schema relCatName = Schema.start relCatName ∧ D.schema attrCatName = Schema.start attrCatName
  lengths : ∀ name, shelf name ≠ none → db.length name ≤ D.written + 3
  used : ∀ name file, shelf name = some file → UsedBy (users name) file.books
  free : ∀ name, User name → users name = none

variable {users : Name → Option HeapFile} {db db' : Db} {shelf shelf' : Shelf} {D : Database} {relation name : Name}
  {table : Table} {file : HeldFile}

namespace Represents

theorem some_attr (represents : Represents users db shelf D) (there : D.tables name = some table) : table.attrs ≠ [] :=
  (represents.catalogued.declared name table.attrs (schema_some there)).2.2.1

theorem relCat (represents : Represents users db shelf D) :
    ∃ table, D.tables relCatName = some table ∧ (table.attrs.map AttrInfo.attrLen).sum = RelDesc.size := by
  obtain ⟨table,there⟩ := Option.ne_none_iff_exists'.mp (mt schema_none.mpr represents.catalogued.catalogs.1)
  have same : table.attrs = Schema.infos relCatAttributes :=
    Option.some.inj ((schema_some there).symm.trans represents.itself.1)
  exact ⟨table,there,by rw [same]; rfl⟩

theorem attrCat (represents : Represents users db shelf D) :
    ∃ table, D.tables attrCatName = some table ∧ (table.attrs.map AttrInfo.attrLen).sum = AttrDesc.size := by
  obtain ⟨table,there⟩ := Option.ne_none_iff_exists'.mp (mt schema_none.mpr represents.catalogued.catalogs.2)
  have same : table.attrs = Schema.infos attrCatAttributes :=
    Option.some.inj ((schema_some there).symm.trans represents.itself.2)
  exact ⟨table,there,by rw [same]; rfl⟩

-- Neither the counter nor a greater bound is in the files.
theorem counted (represents : Represents users db shelf D) {D' : Database} (same : D'.tables = D.tables)
    (grown : D.written ≤ D'.written) :
    Represents users db shelf D' := by
  have same_schema : D'.schema = D.schema := by
    funext name
    rw [schema,schema,same]
  refine ⟨?_,?_,?_,?_,fun name on => (represents.lengths name on).trans (Nat.add_le_add_right grown 3),
    represents.used,represents.free⟩
  · rw [same_schema]
    exact represents.catalogued
  · rw [same]
    exact represents.tables
  · rw [same]
    exact represents.sound
  · rw [same_schema]
    exact represents.itself

-- Whoever only reads leaves all of it.
theorem reads (represents : Represents users db shelf D) (catalogued : Catalogued db' shelf D.schema)
    (stays : db'.Stays shelf db) : Represents users db' shelf D := by
  refine ⟨catalogued,represents.tables,represents.sound,represents.itself,fun name on =>
    ?_,represents.used,represents.free⟩
  rw [stays.length on]
  exact represents.lengths name on

theorem relInfo (represents : Represents users db shelf D) (written : Written relation) (record : RelDesc) :
    ∃ db', RelCatalog.getInfo db relation record = .ok (if D.schema relation = none then .relNotFound else .ok,
        (D.schema relation).elim record fun attrs => ⟨relation,attrs.length⟩,db') ∧ Represents users db' shelf D := by
  obtain ⟨b,asked,catalogued⟩ := represents.catalogued.relInfo written.2 written.1 record
  exact ⟨_,asked,represents.reads catalogued (RelCatalog.getInfo_stays represents.catalogued.stands.shelved.stays
    relation record _ asked)⟩

theorem relAttrs (represents : Represents users db shelf D) (written : Written relation) :
    ∃ db', AttrCatalog.getRelInfo db relation = .ok (if D.schema relation = none then .relNotFound else .ok,
      D.schema.described relation,db') ∧
      Represents users db' shelf D := by
  obtain ⟨b,asked,catalogued⟩ := represents.catalogued.relAttrs written.2 written.1
  exact ⟨_,asked,represents.reads catalogued (AttrCatalog.getRelInfo_stays represents.catalogued.stands.shelved.stays
    relation _ asked)⟩

theorem attrInfo {attrName : Name} (represents : Represents users db shelf D) (written : Written relation)
    (attr_written : Written attrName) (record : AttrDesc) :
    ∃ d db', AttrCatalog.getInfo db relation attrName record =
      .ok (if (D.attr relation attrName).isSome then .ok else .attrNotFound,d,db') ∧
      (∀ found, D.attr relation attrName = some found → d = found) ∧ Represents users db' shelf D := by
  obtain ⟨b,asked,catalogued⟩ := represents.catalogued.attrInfo written.2 written.1 attr_written.1 record
  refine ⟨_,_,asked,fun found is_found => ?_,
    represents.reads catalogued (AttrCatalog.getInfo_stays represents.catalogued.stands.shelved.stays relation
      attrName record _ asked)⟩
  rw [attr] at is_found
  rw [is_found,Option.getD_some]

-- A user's relation whose records have been rewritten, where nothing else has.
theorem rewrite (represents : Represents users db shelf D) (user : User relation)
    (there : D.tables relation = some table)
    (present : shelf relation = some file) {f : Multiset (List UInt8) → Multiset (List UInt8)} {length : Nat}
    (rewritten : Rewritten shelf relation file (f table.tuples) length db')
    (stays : db'.Stays (Function.update shelf relation none) db)
    (wide : ∀ t ∈ f table.tuples, (t.length : Int) = (table.attrs.map AttrInfo.attrLen).sum) {written : Nat}
    (grown : D.written ≤ written)
    (bound : length ≤ written + 3) : ∃ shelf', Represents users db' shelf'
    {D.change relation f with written := written} := by
  obtain ⟨file',stands,books,bag,longer⟩ := rewritten
  have same_schema : ({D.change relation f with written := written} : Database).schema = D.schema := schema_change
  have catalogued := represents.catalogued
  have tables' : ∀ name, name ≠ relation → Function.update shelf relation (some file') name =
    shelf name := fun name apart => Function.update_of_ne apart ..
  obtain ⟨shelf1,same,_,alike⟩ := stays
  have off : ∀ name, name ≠ relation → shelf name ≠ none → shelf1 name ≠ none := by
    intro name apart on
    refine mt (same.off name).mp ?_
    rwa [Function.update_of_ne apart]
  refine ⟨Function.update shelf relation (some file'),⟨stands,?_,?_,?_,?_,?_,?_⟩,?_,?_,?_,?_,?_,represents.free⟩
  · obtain ⟨rc,rels⟩ := catalogued.relCat
    rw [same_schema]
    exact ⟨rc,rels.elsewhere (tables' _ user.1.symm)⟩
  · obtain ⟨ac,attrLists⟩ := catalogued.attrCat
    rw [same_schema]
    exact ⟨ac,attrLists.elsewhere (tables' _ user.2.symm)⟩
  · rw [same_schema]
    exact catalogued.declared
  · rw [same_schema]
    exact catalogued.catalogs
  · rw [same_schema]
    exact fun name unknown => alike.absent name (catalogued.missing name unknown)
  · rw [same_schema]
    intro name known not_rel not_attr
    obtain ⟨own,at_name,closed⟩ := catalogued.closed name known not_rel not_attr
    by_cases here : name = relation
    · rw [here] at at_name ⊢
      cases present.symm.trans at_name
      exact ⟨file',Function.update_self ..,by rw [books]; exact closed⟩
    · exact ⟨own,(tables' name here).trans at_name,closed⟩
  · intro name table' known
    by_cases here : name = relation
    · rw [here] at known ⊢
      cases (change_self there).symm.trans known
      exact ⟨file',Function.update_self ..,bag⟩
    · rw [tables' name here]
      exact represents.tables name table' ((change_other here).symm.trans known)
  · intro name table' known
    by_cases here : name = relation
    · rw [here] at known
      cases (change_self there).symm.trans known
      obtain ⟨usable,few,names,_⟩ := represents.sound relation table there
      exact ⟨usable,few,names,wide⟩
    · exact represents.sound name table' ((change_other here).symm.trans known)
  · rw [same_schema]
    exact represents.itself
  · intro name on
    by_cases here : name = relation
    · rw [here]
      exact longer.trans bound
    · rw [tables' name here] at on
      rw [alike.lengths name (off name here on)]
      exact (represents.lengths name on).trans (Nat.add_le_add_right grown 3)
  · intro name found at_name
    by_cases here : name = relation
    · rw [here,Function.update_self] at at_name
      cases at_name
      rw [here,books]
      exact represents.used relation file present
    · exact represents.used name found ((tables' name here).symm.trans at_name)

-- The books of all files, when those of the catalogs and the relations beside them are as they were.
theorem same_users (represents : Represents users db shelf D) (books : SameCatalogBooks shelf shelf')
    (others : ∀ name file, User name → shelf' name = some file → shelf name = some file ∨ UsedBy none file.books) :
    ∀ name file, shelf' name = some file → UsedBy (users name) file.books := by
  have catalog : ∀ {name file}, (shelf' name).map HeldFile.books = (shelf name).map HeldFile.books →
    shelf' name = some file →
      UsedBy (users name) file.books := by
    intro name file same there
    rw [there,Option.map_some] at same
    obtain ⟨before,present,kept⟩ := Option.map_eq_some_iff.mp same.symm
    rw [← kept]
    exact represents.used name before present
  intro name file there
  by_cases is_rel : name = relCatName
  · exact catalog (is_rel ▸ books.1) there
  by_cases is_attr : name = attrCatName
  · exact catalog (is_attr ▸ books.2) there
  rcases others name file ⟨is_rel,is_attr⟩ there with before | new
  · exact represents.used name file before
  · rw [represents.free name ⟨is_rel,is_attr⟩]
    exact new

-- A relation that has been created.
theorem added {attrs : List AttrInfo} (represents : Represents users db shelf D)
    (catalogued : Catalogued db' shelf' (D.declare relation attrs).schema)
    (added : Added shelf shelf' relation attrs) (few : attrs.length ≤ maxAttrs)
    (names : (attrs.map AttrInfo.attrName).Nodup)
    (usable : ∀ attr ∈ attrs, Usable attr) (new : D.schema relation = none)
    (lengths : ∀ name, shelf name ≠ none ∨ name = relation → db'.length name ≤ max 3 (db.length name + attrs.length)) :
    Represents users db' shelf' (D.declare relation attrs) := by
  have not_rel : relCatName ≠ relation := fun here => represents.catalogued.catalogs.1 (here ▸ new)
  have not_attr : attrCatName ≠ relation := fun here => represents.catalogued.catalogs.2 (here ▸ new)
  obtain ⟨relcat,at_rel,rel_width⟩ := represents.relCat
  obtain ⟨attrcat,at_attr,attr_width⟩ := represents.attrCat
  obtain ⟨rc,rc_there,rc_bag⟩ := represents.tables _ _ at_rel
  obtain ⟨ac,ac_there,ac_bag⟩ := represents.tables _ _ at_attr
  have cases : ∀ name table', (D.declare relation attrs).tables name = some table' →
      (∃ file, shelf' name = some file ∧ file.heap.bag = table'.tuples) ∧ table'.Sound := by
    intro name table' known
    by_cases here : name = relation
    · rw [here] at known ⊢
      cases declare_self.symm.trans known
      obtain ⟨hdr,n,there⟩ := added.own
      exact ⟨⟨_,there,rfl⟩,usable,few,names,fun t member => absurd member (Multiset.notMem_zero t)⟩
    by_cases is_rel : name = relCatName
    · rw [is_rel] at known ⊢
      cases (declare_relCat not_rel at_rel).symm.trans known
      obtain ⟨file,there,gains⟩ := added.entered.relCat rc rc_there
      obtain ⟨usable',few',names',wide'⟩ := represents.sound _ _ at_rel
      refine ⟨⟨file,there,?_⟩,usable',few',names',fun t member => ?_⟩
      · rw [gains.bag,rc_bag]
        rfl
      · rcases Multiset.mem_add.mp member with before | new
        · exact wide' t before
        · rw [Multiset.mem_singleton.mp new,RelDesc.length_bytes,rel_width]
    by_cases is_attr : name = attrCatName
    · rw [is_attr] at known ⊢
      cases (declare_attrCat not_attr at_attr).symm.trans known
      obtain ⟨file,there,gains⟩ := added.entered.attrCat ac ac_there
      obtain ⟨usable',few',names',wide'⟩ := represents.sound _ _ at_attr
      refine ⟨⟨file,there,?_⟩,usable',few',names',fun t member => ?_⟩
      · rw [gains.bag,ac_bag]
      · rcases Multiset.mem_add.mp member with before | new
        · exact wide' t before
        · obtain ⟨d,_,rfl⟩ := List.mem_map.mp (Multiset.mem_coe.mp new)
          rw [AttrDesc.length_bytes,attr_width]
    · rw [declare_other here ⟨is_rel,is_attr⟩] at known
      rw [added.beside name here is_rel is_attr]
      exact ⟨represents.tables name table' known,represents.sound name table' known⟩
  have books : ∀ name file, User name → shelf' name = some file → shelf name = some file ∨ UsedBy none file.books := by
    intro name file user there
    by_cases here : name = relation
    · obtain ⟨hdr,n,own⟩ := added.own
      cases own.symm.trans (here ▸ there)
      exact .inr (.free hdr)
    · exact .inl ((added.beside name here user.1 user.2).symm.trans there)
  refine ⟨catalogued,fun name table' known => (cases name table' known).1,fun name table' known =>
    (cases name table' known).2,?_,?_,
    represents.same_users added.books books,represents.free⟩
  · rw [schema_declare,Function.update_of_ne not_rel,Function.update_of_ne not_attr]
    exact represents.itself
  · intro name on
    change _ ≤ D.written + attrs.length + 3
    by_cases here : name = relation
    · have none_before : db.length name = 0 := by rw [here,Db.length,represents.catalogued.missing relation new]; rfl
      have bound := lengths name (.inr here)
      omega
    · have before : shelf name ≠ none := by
        by_cases is_rel : name = relCatName
        · rw [is_rel,rc_there]
          exact Option.some_ne_none _
        by_cases is_attr : name = attrCatName
        · rw [is_attr,ac_there]
          exact Option.some_ne_none _
        · rwa [← added.beside name here is_rel is_attr]
      have bound := lengths name (.inl before)
      have length := represents.lengths name before
      omega

theorem createRel {attrs : List AttrInfo} (represents : Represents users db shelf D) (clean : 0 ∉ relation)
    (few : attrs.length ≤ maxAttrs)
    (columns : (D.schema.create relation attrs).1 = .ok → ∀ attr ∈ attrs, Column attr)
    (usable : ∀ attr ∈ attrs, Usable attr)
    (room : (D.schema.create relation attrs).1 = .ok → D.Room attrs.length) :
    ∃ db' shelf', RelCatalog.createRel db relation attrs = .ok ((D.schema.create relation attrs).1,db') ∧
      ((D.schema.create relation attrs).1 = .ok → Represents users db' shelf' (D.declare relation attrs)) ∧
      ((D.schema.create relation attrs).1 ≠ .ok → Represents users db' shelf' D) := by
  have catalogued := represents.catalogued
  obtain ⟨rc,rels⟩ := catalogued.relCat
  obtain ⟨ac,attrLists⟩ := catalogued.attrCat
  have on_rel : shelf relCatName ≠ none := by rw [rels.present]; exact Option.some_ne_none _
  have on_attr : shelf attrCatName ≠ none := by rw [attrLists.present]; exact Option.some_ne_none _
  have paged : (D.schema.create relation attrs).1 = .ok → db.length relCatName < 2 ^ 31 ∧
      db.length attrCatName + attrs.length ≤ 2 ^ 31 := by
    intro done
    have some_attr := (Schema.create_checked done).1
    have enough := room done
    have length_rel := represents.lengths _ on_rel
    have length_attr := represents.lengths _ on_attr
    unfold Room at enough
    omega
  obtain ⟨db',shelf',created,catalogued',refused,accepted⟩ := catalogued.createRel_room clean
    (fun done => Schema.declarable_of_columns few (columns done)) paged
  rw [Schema.create_after] at catalogued'
  refine ⟨db',shelf',created,fun done => ?_,fun failed => ?_⟩
  · obtain ⟨added,lengths⟩ := accepted done
    rw [Schema.after,if_pos done,← schema_declare] at catalogued'
    exact represents.added catalogued' added few (Schema.create_checked done).2 usable
      (Schema.create_ok done).2.2.1 lengths
  · obtain ⟨rfl,lengths⟩ := refused failed
    rw [Schema.after,if_neg failed] at catalogued'
    refine ⟨catalogued',represents.tables,represents.sound,represents.itself,fun name on =>
      ?_,represents.used,represents.free⟩
    rw [lengths name on]
    exact represents.lengths name on

-- And one that has been destroyed.
theorem left (represents : Represents users db shelf D) (catalogued : Catalogued db' shelf' (D.forget relation).schema)
    (left : Left shelf shelf' relation)
    (user : User relation) (known : D.schema relation ≠ none)
    (beside : ∀ other, other ≠ relation → other ≠ relCatName → other ≠ attrCatName → shelf' other = shelf other)
    (books : SameCatalogBooks shelf shelf') (lengths : ∀ name, db'.length name ≤ db.length name) :
    Represents users db' shelf' (D.forget relation) := by
  obtain ⟨relcat,at_rel,_⟩ := represents.relCat
  obtain ⟨attrcat,at_attr,_⟩ := represents.attrCat
  obtain ⟨rc,rc_there,rc_bag⟩ := represents.tables _ _ at_rel
  obtain ⟨ac,ac_there,ac_bag⟩ := represents.tables _ _ at_attr
  have narrowed : ∀ {name table}, D.tables name = some table →
      (Table.mk table.attrs (table.tuples.filter fun row => ¬ OfRelation relation row)).Sound := by
    intro name table there
    obtain ⟨usable,few,names,wide⟩ := represents.sound name table there
    exact ⟨usable,few,names,fun t member => wide t (Multiset.mem_filter.mp member).1⟩
  have cases : ∀ name table', (D.forget relation).tables name = some table' →
      (∃ file, shelf' name = some file ∧ file.heap.bag = table'.tuples) ∧ table'.Sound := by
    intro name table' known
    by_cases here : name = relation
    · rw [here,forget_self] at known
      cases known
    by_cases is_rel : name = relCatName
    · rw [is_rel] at known ⊢
      cases (forget_relCat user.1.symm at_rel).symm.trans known
      obtain ⟨file,there,rest⟩ := left.relCat rc rc_there
      exact ⟨⟨file,there,by rw [Heap.bag_filter (fun row => ¬ OfRelation relation row) rest,rc_bag]⟩,narrowed at_rel⟩
    by_cases is_attr : name = attrCatName
    · rw [is_attr] at known ⊢
      cases (forget_attrCat user.2.symm at_attr).symm.trans known
      obtain ⟨file,there,rest⟩ := left.attrCat ac ac_there
      exact ⟨⟨file,there,by rw [Heap.bag_filter (fun row => ¬ OfRelation relation row) rest,ac_bag]⟩,narrowed at_attr⟩
    · rw [forget_other here ⟨is_rel,is_attr⟩] at known
      rw [beside name here is_rel is_attr]
      exact ⟨represents.tables name table' known,represents.sound name table' known⟩
  have others : ∀ name file, User name → shelf' name = some file → shelf name = some file ∨ UsedBy none file.books := by
    intro name file own there
    by_cases here : name = relation
    · obtain ⟨_,_,b,found,_⟩ := catalogued.stands name file there
      rw [here,catalogued.missing relation (by rw [schema_forget,Function.update_self])] at found
      cases found
    · exact .inl ((beside name here own.1 own.2).symm.trans there)
  refine ⟨catalogued,fun name table' known => (cases name table' known).1,fun name table' known =>
    (cases name table' known).2,?_,?_,
    represents.same_users books others,represents.free⟩
  · rw [schema_forget,Function.update_of_ne user.1.symm,Function.update_of_ne user.2.symm]
    exact represents.itself
  · intro name on
    change _ ≤ D.written + 3
    refine (lengths name).trans (represents.lengths name ?_)
    by_cases here : name = relation
    · obtain ⟨file,there,_⟩ := represents.catalogued.closed relation known user.1 user.2
      rw [here,there]
      exact Option.some_ne_none _
    by_cases is_rel : name = relCatName
    · rw [is_rel,rc_there]
      exact Option.some_ne_none _
    by_cases is_attr : name = attrCatName
    · rw [is_attr,ac_there]
      exact Option.some_ne_none _
    · rwa [← beside name here is_rel is_attr]

theorem destroyRel (represents : Represents users db shelf D) (clean : 0 ∉ relation) :
    ∃ db' shelf', RelCatalog.destroyRel db relation = .ok ((D.schema.destroy relation).1,db') ∧
      ((D.schema.destroy relation).1 = .ok → Represents users db' shelf' (D.forget relation)) ∧
      ((D.schema.destroy relation).1 ≠ .ok → Represents users db' shelf' D) := by
  obtain ⟨db',shelf',destroyed,catalogued',lengths,books,accepted,refused⟩ :=
    represents.catalogued.destroyRel_effect clean
  rw [Schema.destroy_after] at catalogued'
  refine ⟨db',shelf',destroyed,fun done => ?_,fun failed => ?_⟩
  · obtain ⟨gone,beside⟩ := accepted done
    rw [Schema.after,if_pos done,← schema_forget] at catalogued'
    obtain ⟨user,known⟩ := Schema.destroy_ok done
    exact represents.left catalogued' gone user known beside books lengths
  · rw [Schema.after,if_neg failed] at catalogued'
    have same : SameRecords shelf shelf' := by
      intro name
      have both := congrArg (Option.map Prod.fst) (refused failed name)
      rwa [Option.map_map,Option.map_map] at both
    refine ⟨catalogued',fun name table there => ?_,represents.sound,represents.itself,fun name on =>
      ?_,?_,represents.free⟩
    · obtain ⟨file,present,bag⟩ := represents.tables name table there
      obtain ⟨file',present',kept⟩ := same.find present
      exact ⟨file',present',by rw [Heap.bag,kept]; exact bag⟩
    · exact (lengths name).trans (represents.lengths name (mt (same.off name).mpr on))
    · intro name file there
      have both := congrArg (Option.map Prod.snd) (refused failed name)
      rw [Option.map_map,Option.map_map,there] at both
      obtain ⟨before,present,kept⟩ := Option.map_eq_some_iff.mp both.symm
      have books : before.books = file.books := kept
      rw [← books]
      exact represents.used name before present

end Represents

end Minirel
