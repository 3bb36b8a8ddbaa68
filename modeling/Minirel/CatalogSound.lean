import Minirel.CatalogGrowth
import Minirel.CatalogHistory

namespace Minirel
open ByteMemory SlotDirectory Page Heap Db

variable {db db' : Db} {shelf shelf' : Shelf} {base : Db} {schema : Schema} {catalog relation : Name}
  {file file' : HeldFile}
  {heap heap' : Heap} {new : List (List UInt8)} {attrs : List AttrInfo}

-- Two heap files that list every relation that has been declared, both catalogs among them, and have no
-- other row. The lengths of attributes are those of the types that can be declared.
structure SoundCatalogs (db : Db) (shelf : Shelf) (schema : Schema) : Prop where
  registered : Registered db shelf schema
  bare : ∀ name, shelf name ≠ none → name = relCatName ∨ name = attrCatName
  terminated : ∀ name file, shelf name = some file → ∀ e ∈ records file.heap, ∃ relation, OfRelation relation e.2
  narrow : ∀ relation attrs, schema relation = some attrs → ∀ attr ∈ attrs, 0 ≤ attr.attrLen ∧ attr.attrLen ≤ 255
  itself : schema relCatName = Schema.start relCatName ∧ schema attrCatName = Schema.start attrCatName

namespace SoundCatalogs

theorem shelved (sound : SoundCatalogs db shelf schema) : db.Shelved shelf db := sound.registered.stands.shelved

theorem off (sound : SoundCatalogs db shelf schema) (not_rel : relation ≠ relCatName)
    (not_attr : relation ≠ attrCatName) : shelf relation = none := by
  by_contra there
  rcases sound.bare relation there with is_rel | is_attr
  · exact not_rel is_rel
  · exact not_attr is_attr

theorem stays (sound : SoundCatalogs db shelf schema) (stays : db'.Stays shelf base) :
    ∃ shelf', SoundCatalogs db' shelf' schema ∧ ∀ name, name = relCatName ∨ name = attrCatName →
      db'.length name = base.length name := by
  obtain ⟨shelf',same,shelved⟩ := stays
  obtain ⟨rc,rels⟩ := sound.registered.relCat
  obtain ⟨ac,attrLists⟩ := sound.registered.attrCat
  obtain ⟨rc',at_rel,rel_rows⟩ := same.find rels.present
  obtain ⟨ac',at_attr,attr_rows⟩ := same.find attrLists.present
  refine ⟨shelf',⟨⟨shelved.stands,⟨rc',rels.same_records at_rel rel_rows⟩,
    ⟨ac',attrLists.same_records at_attr attr_rows⟩,sound.registered.declared⟩,
    ?_,?_,sound.narrow,sound.itself⟩,?_⟩
  · intro name there
    exact sound.bare name (mt (same.off name).mpr there)
  · intro name file there
    obtain ⟨file0,before⟩ := Option.ne_none_iff_exists'.mp
      (mt (same.off name).mpr (by rw [there]; exact Option.some_ne_none _))
    obtain ⟨file1,there1,rows_same⟩ := same.find before
    cases there.symm.trans there1
    rw [rows_same]
    exact sound.terminated name file0 before
  · rintro name (rfl | rfl)
    · exact shelved.alike.lengths _ (by rw [at_rel]; exact Option.some_ne_none _)
    · exact shelved.alike.lengths _ (by rw [at_attr]; exact Option.some_ne_none _)

end SoundCatalogs

-- There is room for a page for every row of one more relation.
def Roomy (db : Db) : Prop := db.length relCatName + maxAttrs ≤ 2 ^ 31 ∧ db.length attrCatName + maxAttrs ≤ 2 ^ 31

-- The catalogs are sound, whatever has been declared.
def Intact (db : Db) : Prop := ∃ shelf schema, SoundCatalogs db shelf schema

namespace SoundCatalogs

theorem intact (sound : SoundCatalogs db shelf schema) : Intact db := ⟨shelf,schema,sound⟩

theorem read (sound : SoundCatalogs db shelf schema) (stays : db'.Stays shelf db) (roomy : Roomy db) :
    ∃ shelf', SoundCatalogs db' shelf' schema ∧ Roomy db' := by
  obtain ⟨shelf',sound',lengths⟩ := sound.stays stays
  refine ⟨shelf',sound',?_⟩
  rw [Roomy,lengths relCatName (.inl rfl),lengths attrCatName (.inr rfl)]
  exact roomy

-- A relation's rows come into both catalogs.
theorem enter {rc ac rc' ac' : HeldFile} (sound : SoundCatalogs db shelf schema) (stands : db'.Stands shelf')
    (bare : ∀ name, shelf' name ≠ none → name = relCatName ∨ name = attrCatName) (rels : shelf relCatName = some rc)
    (attr_rows : shelf attrCatName = some ac) (rels' : shelf' relCatName = some rc')
    (attr_rows' : shelf' attrCatName = some ac')
    (gains_rel : Gains rc.heap rc'.heap [RelDesc.bytes ⟨relation,attrs.length⟩])
    (gains_attr : Gains ac.heap ac'.heap ((Schema.description relation attrs).map AttrDesc.bytes))
    (undeclared : schema relation = none)
    (named : Fits relation) (given : relation ≠ []) (some_attr : attrs ≠ []) (declarable : Schema.Declarable attrs)
    (narrow : ∀ attr ∈ attrs, 0 ≤ attr.attrLen ∧ attr.attrLen ≤ 255) :
    SoundCatalogs db' shelf' (Function.update schema relation (some attrs)) := by
  have rel_row : ∀ row ∈ [RelDesc.bytes ⟨relation,attrs.length⟩], OfRelation relation row ∧
      row.length = RelDesc.size := by
    intro row member
    rw [List.mem_singleton.mp member]
    exact ⟨Schema.ofRelation_relDesc named,RelDesc.length_bytes _⟩
  have attr_row : ∀ row ∈ (Schema.description relation attrs).map AttrDesc.bytes, OfRelation relation row ∧
      row.length = AttrDesc.size := by
    intro row member
    obtain ⟨d,inside,rfl⟩ := List.mem_map.mp member
    have rel := (Schema.mem_description inside).1
    exact ⟨rel ▸ Schema.ofRelation_attrDesc (rel ▸ named),AttrDesc.length_bytes d⟩
  obtain ⟨rc0,listed_rel⟩ := sound.registered.relCat
  cases rels.symm.trans listed_rel.present
  obtain ⟨ac0,listed_attr⟩ := sound.registered.attrCat
  cases attr_rows.symm.trans listed_attr.present
  have changed : ∀ {P : Name → List AttrInfo → Prop}, (∀ other attrs', schema other = some attrs' → P other attrs') →
    P relation attrs →
      ∀ other attrs', Function.update schema relation (some attrs) other = some attrs' → P other attrs' := by
    intro P before now other attrs' there
    by_cases here : other = relation
    · rw [here,Function.update_self] at there
      cases there
      exact here ▸ now
    · rw [Function.update_of_ne here] at there
      exact before other attrs' there
  refine ⟨⟨stands,⟨rc',?_⟩,⟨ac',?_⟩,changed sound.registered.declared ⟨named,given,some_attr,declarable⟩⟩,
    bare,?_,changed sound.narrow narrow,?_⟩
  · exact listed_rel.gain stands rels' gains_rel rel_row (by rw [Schema.relRows,undeclared]; rfl)
      (fun other => Schema.relRows_update _)
      (by rw [Schema.relRows,Function.update_self]; rfl)
  · exact listed_attr.gain stands attr_rows' gains_attr attr_row
      (by rw [Schema.attrRows,Schema.described,undeclared]; rfl)
      (fun other => Schema.attrRows_update _) (by rw [Schema.attrRows,Schema.described,Function.update_self]; rfl)
  · intro name file there
    rcases bare name (by rw [there]; exact Option.some_ne_none _) with rfl | rfl
    · cases there.symm.trans rels'
      exact gains_rel.forall_records (P:=fun row => ∃ relation, OfRelation relation row) (stands.keys_nodup there)
        (sound.terminated _ _ rels) fun row member => ⟨relation,(rel_row row member).1⟩
    · cases there.symm.trans attr_rows'
      exact gains_attr.forall_records (P:=fun row => ∃ relation, OfRelation relation row) (stands.keys_nodup there)
        (sound.terminated _ _ attr_rows) fun row member => ⟨relation,(attr_row row member).1⟩
  · have not_rel : relCatName ≠ relation := by
      rintro rfl
      rw [sound.itself.1] at undeclared
      cases undeclared
    have not_attr : attrCatName ≠ relation := by
      rintro rfl
      rw [sound.itself.2] at undeclared
      cases undeclared
    rw [Function.update_of_ne not_rel,Function.update_of_ne not_attr]
    exact sound.itself

-- createRel, for names and lengths that can be declared, leaves both catalogs sound whatever it answers.
theorem createRel (sound : SoundCatalogs db shelf schema) (roomy : Roomy db) (clean : 0 ∉ relation)
    (few : attrs.length ≤ maxAttrs)
    (declarable : Schema.Declarable attrs) (narrow : ∀ attr ∈ attrs, 0 ≤ attr.attrLen ∧ attr.attrLen ≤ 255) :
    Ends (fun r => Intact r.2) (RelCatalog.createRel db relation attrs) := by
  rw [RelCatalog.createRel]
  split
  · exact .ok sound.intact
  rename_i parm
  obtain ⟨given,some_attr⟩ := not_or.mp parm
  split
  · exact .ok sound.intact
  rename_i long
  obtain ⟨b,asked,_⟩ := sound.registered.relInfo clean given ⟨[],0⟩
  obtain ⟨shelf1,sound1,roomy1⟩ := sound.read (RelCatalog.getInfo_stays sound.shelved.stays relation ⟨[],0⟩ _ asked)
    roomy
  rw [asked,ok_bind]
  dsimp only at sound1 roomy1 ⊢
  generalize db.setPool relCatName b = db1 at sound1 roomy1 ⊢
  by_cases undeclared : schema relation = none
  swap
  · rw [if_neg undeclared,if_pos rfl]
    exact .ok sound1.intact
  rw [if_pos undeclared,if_neg Status.noConfusion,if_neg (not_not_intro rfl)]
  split
  · exact .ok sound1.intact
  split
  · exact .ok sound1.intact
  have not_rel : relation ≠ relCatName := by
    rintro rfl
    rw [sound.itself.1] at undeclared
    cases undeclared
  have not_attr : relation ≠ attrCatName := by
    rintro rfl
    rw [sound.itself.2] at undeclared
    cases undeclared
  have apart : attrCatName ≠ relCatName := by decide
  obtain ⟨rc,rels⟩ := sound1.registered.relCat
  obtain ⟨ac,attrLists⟩ := sound1.registered.attrCat
  have capacity : maxAttrs = 40 := rfl
  obtain ⟨b2,rc',added,gained_rel,_⟩ := addRow_grows (sound1.registered.stands.gained rels.present)
    (RelDesc.bytes_ne_nil ⟨relation,attrs.length⟩) (by rw [RelDesc.length_bytes]; decide) (by have := roomy1.1; omega)
  have at_attr : Function.update shelf1 relCatName (some rc') attrCatName = some ac := by
    rw [Function.update_of_ne apart]
    exact attrLists.present
  have length_attr : (db1.setPool relCatName b2).length attrCatName = db1.length attrCatName :=
    (elsewhere_setPool db1 relCatName b2).length apart
  obtain ⟨db3,shelf3,attrs_added,beside,gained_attr,_⟩ :=
    addAttributes_grows (gained_rel.stands.gained at_attr) relation 0
    (fun attr member => (declarable.attrNames attr member).1.2) (by rw [length_attr]; have := roomy1.2; omega)
  rw [RelCatalog.addInfo,added,ok_bind]
  dsimp only
  rw [if_neg (not_not_intro rfl),attrs_added,ok_bind]
  dsimp only
  rw [if_neg (not_not_intro rfl)]
  obtain ⟨_,file1,before1,n1,d1,at_rel1,split1,appending1⟩ := gained_rel
  obtain ⟨stands3,file3,before3,n3,d3,at_attr3,split3,appending3⟩ := gained_attr
  have at_rel3 : shelf3 relCatName = some file1 := by
    rw [(beside relCatName (Ne.symm apart)).2]
    exact at_rel1
  have bare3 : ∀ name, shelf3 name ≠ none → name = relCatName ∨ name = attrCatName := by
    intro name there
    by_cases is_attr : name = attrCatName
    · exact .inr is_attr
    by_cases is_rel : name = relCatName
    · exact .inl is_rel
    · rw [(beside name is_attr).2,Function.update_of_ne is_rel] at there
      exact sound1.bare name there
  have off3 : shelf3 relation = none := by
    by_contra there
    rcases bare3 relation there with is_rel | is_attr
    · exact not_rel is_rel
    · exact not_attr is_attr
  intro r made
  have stands4 := stands3.elsewhere off3 (createHeapFile_elsewhere db3 relation r made)
  rw [List.nil_append] at appending1 appending3
  rw [Schema.describe_description] at appending3
  exact (sound1.enter stands4 bare3 rels.present attrLists.present at_rel3 at_attr3 (split1 ▸ appending1.gains)
    (split3 ▸ appending3.gains)
    undeclared ⟨clean,Nat.lt_of_not_le long⟩ given (List.ne_nil_of_length_pos (Nat.le_of_not_lt some_attr))
      declarable narrow).intact

-- A relation's rows go from both.
theorem leave {rc ac rc' ac' : HeldFile} (sound : SoundCatalogs db shelf schema) (stands : db'.Stands shelf')
    (bare : ∀ name, shelf' name ≠ none → name = relCatName ∨ name = attrCatName) (rels : shelf relCatName = some rc)
    (attr_rows : shelf attrCatName = some ac) (rels' : shelf' relCatName = some rc')
    (attr_rows' : shelf' attrCatName = some ac')
    (left_rel : records rc'.heap = (records rc.heap).filter fun e => ¬ OfRelation relation e.2)
    (left_attr : records ac'.heap = (records ac.heap).filter fun e => ¬ OfRelation relation e.2)
    (not_rel : relation ≠ relCatName) (not_attr : relation ≠ attrCatName) :
    SoundCatalogs db' shelf' (Function.update schema relation none) := by
  have gone : Function.update schema relation none relation = none := Function.update_self ..
  obtain ⟨rc0,listed_rel⟩ := sound.registered.relCat
  cases rels.symm.trans listed_rel.present
  obtain ⟨ac0,listed_attr⟩ := sound.registered.attrCat
  cases attr_rows.symm.trans listed_attr.present
  have before : ∀ other attrs', Function.update schema relation none other = some attrs' →
      schema other = some attrs' := by
    intro other attrs' there
    by_cases here : other = relation
    · rw [here,gone] at there
      cases there
    · rwa [Function.update_of_ne here] at there
  refine ⟨⟨stands,⟨rc',?_⟩,⟨ac',?_⟩,fun other attrs' there => sound.registered.declared other attrs'
    (before other attrs' there)⟩,bare,?_,
    fun other attrs' there => sound.narrow other attrs' (before other attrs' there),?_⟩
  · exact listed_rel.lose rels' left_rel (fun other => Schema.relRows_update _) (Schema.relRows_none gone)
  · exact listed_attr.lose attr_rows' left_attr (fun other => Schema.attrRows_update _) (Schema.attrRows_none gone)
  · intro name file there e member
    rcases bare name (by rw [there]; exact Option.some_ne_none _) with rfl | rfl
    · cases there.symm.trans rels'
      rw [left_rel] at member
      exact sound.terminated _ _ rels e (List.mem_of_mem_filter member)
    · cases there.symm.trans attr_rows'
      rw [left_attr] at member
      exact sound.terminated _ _ attr_rows e (List.mem_of_mem_filter member)
  · rw [Function.update_of_ne (Ne.symm not_rel),Function.update_of_ne (Ne.symm not_attr)]
    exact sound.itself

theorem destroyRel (sound : SoundCatalogs db shelf schema) (clean : 0 ∉ relation) :
    Ends (fun r => Intact r.2) (RelCatalog.destroyRel db relation) := by
  rw [RelCatalog.destroyRel]
  split
  · exact .ok sound.intact
  rename_i parm
  obtain ⟨given,not_catalog⟩ := not_or.mp parm
  obtain ⟨not_rel,not_attr⟩ := not_or.mp not_catalog
  have apart : attrCatName ≠ relCatName := by decide
  obtain ⟨rc,rels⟩ := sound.registered.relCat
  obtain ⟨ac,attrLists⟩ := sound.registered.attrCat
  have stands := sound.registered.stands
  have described := sound.registered.attributes_described attrLists relation
  have attrs_given : ∀ d ∈ attributes ac.heap relation, d.attrName ≠ [] := by
    intro d member
    rw [described] at member
    exact sound.registered.attrsGiven member
  obtain ⟨b1,heap1,recCnt1,asked,holds1,left1,_⟩ :=
    AttrCatalog.dropRelation_spec (stands _ ac attrLists.present) attrLists.wide clean given attrs_given
  have stands1 := stands.put ⟨ac.books,heap1,recCnt1⟩ holds1
  have at_rel1 : Function.update shelf attrCatName (some ⟨ac.books,heap1,recCnt1⟩) relCatName = some rc := by
    rw [Function.update_of_ne (Ne.symm apart)]
    exact rels.present
  have bare1 : ∀ name, Function.update shelf attrCatName (some ⟨ac.books,heap1,recCnt1⟩) name ≠ none →
      name = relCatName ∨ name = attrCatName := by
    intro name there
    by_cases is_attr : name = attrCatName
    · exact .inr is_attr
    · rw [Function.update_of_ne is_attr] at there
      exact sound.bare name there
  rw [asked,ok_bind]
  dsimp only
  by_cases undeclared : schema relation = none
  · have none_listed := described.trans (sound.registered.described_nil.mpr undeclared)
    have refused : Status.relNotFound ≠ .ok := Status.noConfusion
    rw [if_pos none_listed,if_pos refused]
    have no_row := rows_none (rels.rows_nil.mpr (Schema.relRows_none undeclared))
    exact .ok (sound.leave stands1 bare1 rels.present attrLists.present at_rel1 (Function.update_self ..)
      no_row left1 not_rel not_attr).intact
  have some_listed : attributes ac.heap relation ≠ [] := fun none_listed =>
    undeclared (sound.registered.described_nil.mp (described.symm.trans none_listed))
  rw [if_neg some_listed,if_neg (not_not_intro rfl)]
  obtain ⟨attrs,declared⟩ := Option.ne_none_iff_exists'.mp undeclared
  have listed := rels.rows relation
  rw [Schema.relRows,declared,Option.elim_some] at listed
  obtain ⟨e,single,_⟩ := List.map_eq_singleton_iff.mp listed
  obtain ⟨b2,heap2,recCnt2,removed,holds2,without,_⟩ :=
    RelCatalog.removeInfo_spec (stands1 _ rc at_rel1) clean given single
  have stands2 := stands1.put ⟨rc.books,heap2,recCnt2⟩ holds2
  rw [removed,ok_bind]
  dsimp only
  rw [if_neg (not_not_intro rfl)]
  have left2 := without.only single (stands.keys_nodup rels.present)
  have bare2 : ∀ name, Function.update (Function.update shelf attrCatName (some ⟨ac.books,heap1,recCnt1⟩)) relCatName
      (some ⟨rc.books,heap2,recCnt2⟩) name ≠ none → name = relCatName ∨ name = attrCatName := by
    intro name there
    by_cases is_rel : name = relCatName
    · exact .inl is_rel
    · rw [Function.update_of_ne is_rel] at there
      exact bare1 name there
  have at_attr2 : Function.update (Function.update shelf attrCatName (some ⟨ac.books,heap1,recCnt1⟩)) relCatName
      (some ⟨rc.books,heap2,recCnt2⟩) attrCatName = some ⟨ac.books,heap1,recCnt1⟩ := by
    rw [Function.update_of_ne apart]
    exact Function.update_self ..
  have sound2 := sound.leave stands2 bare2 rels.present attrLists.present (Function.update_self ..) at_attr2
    left2 left1 not_rel not_attr
  have removed_file := sound2.shelved.only (sound2.off not_rel not_attr) (destroyHeapFile_only _ relation)
  obtain ⟨shelf3,sound3,_⟩ := sound2.stays removed_file.stays
  exact .ok sound3.intact

end SoundCatalogs

end Minirel
