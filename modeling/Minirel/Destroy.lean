import Minirel.CatalogCalls

namespace Minirel
open ByteMemory SlotDirectory Page Heap

variable {db db' : Db} {shelf shelf' : Shelf} {schema : Schema} {relation : Name} {attrs : List AttrInfo}

-- A relation's rows have gone from both catalogs.
structure Left (shelf shelf' : Shelf) (relation : Name) : Prop where
  relCat : ∀ file, shelf relCatName = some file →
    ∃ file', shelf' relCatName = some file' ∧ records file'.heap =
      (records file.heap).filter fun e => ¬ OfRelation relation e.2
  attrCat : ∀ file, shelf attrCatName = some file →
    ∃ file', shelf' attrCatName = some file' ∧ records file'.heap =
      (records file.heap).filter fun e => ¬ OfRelation relation e.2

-- The only row of a relation is all that the relation has.
theorem Without.only {heap heap' : Heap} {e : Entry} (without : Without heap heap' e.1)
    (single : Minirel.rows heap relation = [e])
    (nodup : ((records heap).map Prod.fst).Nodup) :
    records heap' = (records heap).filter fun e' => ¬ OfRelation relation e'.2 := by
  have own : e ∈ records heap ∧ OfRelation relation e.2 := mem_rows.mp (by rw [single]; exact List.mem_cons_self ..)
  rw [without]
  apply List.filter_congr
  intro e' member
  rw [decide_eq_decide]
  constructor
  · intro other mine
    have there := mem_rows.mpr ⟨member,mine⟩
    rw [single,List.mem_singleton] at there
    exact other (congrArg Prod.fst there)
  · intro foreign same
    have one : e' = e := List.inj_on_of_nodup_map nodup member own.1 same
    exact foreign (one ▸ own.2)

namespace Schema

theorem relRows_none (undeclared : schema relation = none) : schema.relRows relation = [] := by
  rw [relRows,undeclared]
  rfl

theorem attrRows_none (undeclared : schema relation = none) : schema.attrRows relation = [] := by
  rw [attrRows,described,undeclared]
  rfl

end Schema

namespace Catalogued

-- Nothing is declared under the name any more, and its file has been removed.
theorem left (catalogued : Catalogued db shelf schema) (stands : db'.Stands shelf') (left : Left shelf shelf' relation)
    (not_rel : relation ≠ relCatName) (not_attr : relation ≠ attrCatName) (removed : db'.files relation = none)
    (beside : ∀ other, other ≠ relation → other ≠ relCatName → other ≠ attrCatName →
      db'.files other = db.files other ∧ shelf' other = shelf other) :
    Catalogued db' shelf' (Function.update schema relation none) := by
  obtain ⟨rc,rels⟩ := catalogued.relCat
  obtain ⟨ac,attrLists⟩ := catalogued.attrCat
  obtain ⟨rc',at_rel,rest_rel⟩ := left.relCat rc rels.present
  obtain ⟨ac',at_attr,rest_attr⟩ := left.attrCat ac attrLists.present
  have gone : Function.update schema relation none relation = none := Function.update_self ..
  refine ⟨stands,⟨rc',?_⟩,⟨ac',?_⟩,?_,?_,?_,?_⟩
  · exact rels.lose at_rel rest_rel (fun other => Schema.relRows_update _) (Schema.relRows_none gone)
  · exact attrLists.lose at_attr rest_attr (fun other => Schema.attrRows_update _) (Schema.attrRows_none gone)
  · intro other attrs' there
    by_cases here : other = relation
    · rw [here,gone] at there
      cases there
    · rw [Function.update_of_ne here] at there
      exact catalogued.declared other attrs' there
  · rw [Function.update_of_ne (Ne.symm not_rel),Function.update_of_ne (Ne.symm not_attr)]
    exact catalogued.catalogs
  · intro other there
    by_cases here : other = relation
    · rw [here]
      exact removed
    · rw [Function.update_of_ne here] at there
      rw [(beside other here (fun cat => catalogued.catalogs.1 (cat ▸ there))
        (fun cat => catalogued.catalogs.2 (cat ▸ there))).1]
      exact catalogued.missing other there
  · intro other there other_rel other_attr
    by_cases here : other = relation
    · rw [here,gone] at there
      exact absurd rfl there
    · rw [Function.update_of_ne here] at there
      rw [(beside other here other_rel other_attr).2]
      exact catalogued.closed other there other_rel other_attr

-- dropRelation on the catalogs: the rows of the relation go, whether there are any or not.
theorem dropped (catalogued : Catalogued db shelf schema) (clean : 0 ∉ relation) (given : relation ≠ []) {ac : HeldFile}
    (present : shelf attrCatName = some ac) (lists : Lists shelf attrCatName AttrDesc.size schema.attrRows ac) :
    ∃ b ac', AttrCatalog.dropRelation db relation =
        .ok (if schema relation = none then .relNotFound else .ok,db.setPool attrCatName b) ∧
      (db.setPool attrCatName b).Stands (Function.update shelf attrCatName (some ac')) ∧
      (records ac'.heap = (records ac.heap).filter fun e => ¬ OfRelation relation e.2) ∧
      b.file.length = db.length attrCatName ∧
      ac'.books = ac.books := by
  have described := catalogued.registered.attributes_described lists relation
  have attrs_given : ∀ d ∈ attributes ac.heap relation, d.attrName ≠ [] := by
    intro d member
    rw [described] at member
    exact catalogued.registered.attrsGiven member
  obtain ⟨b,heap,recCnt,asked,holds,rest⟩ :=
    AttrCatalog.dropRelation_spec (catalogued.stands _ ac present) lists.wide clean given attrs_given
  refine ⟨b,⟨ac.books,heap,recCnt⟩,?_,catalogued.stands.put ⟨ac.books,heap,recCnt⟩ holds,rest.1,rest.2,rfl⟩
  rw [asked,described]
  simp only [catalogued.registered.described_nil]

-- destroyRel takes the relation's rows and its file away, or every file has the records that it had. No
-- file grows.
theorem destroyRel_effect (catalogued : Catalogued db shelf schema) (clean : 0 ∉ relation) :
    ∃ db' shelf', RelCatalog.destroyRel db relation = .ok ((schema.destroy relation).1,db') ∧
      Catalogued db' shelf' (schema.destroy relation).2 ∧ (∀ name, db'.length name ≤ db.length name) ∧
        SameCatalogBooks shelf shelf' ∧
      ((schema.destroy relation).1 = .ok → Left shelf shelf' relation ∧
        ∀ other, other ≠ relation → other ≠ relCatName → other ≠ attrCatName → shelf' other = shelf other) ∧
      ((schema.destroy relation).1 ≠ .ok → ∀ name, (shelf' name).map (fun file => (records file.heap,file.books)) =
        (shelf name).map fun file => (records file.heap,file.books)) := by
  rw [RelCatalog.destroyRel,Schema.destroy]
  by_cases parm : relation = [] ∨ relation = relCatName ∨ relation = attrCatName
  · rw [if_pos parm,if_pos parm]
    exact ⟨db,shelf,rfl,catalogued,fun _ => Nat.le_refl _,⟨rfl,rfl⟩,Status.noConfusion,fun _ _ => rfl⟩
  rw [if_neg parm,if_neg parm]
  obtain ⟨given,not_catalog⟩ := not_or.mp parm
  obtain ⟨not_rel,not_attr⟩ := not_or.mp not_catalog
  have apart : attrCatName ≠ relCatName := by decide
  obtain ⟨rc,rels⟩ := catalogued.relCat
  obtain ⟨ac,attrLists⟩ := catalogued.attrCat
  obtain ⟨b1,ac1,asked,stands1,rest1,length1,books1⟩ := catalogued.dropped clean given attrLists.present attrLists
  have lengths1 : ∀ name, (db.setPool attrCatName b1).length name = db.length name := Db.lengths_setPool length1
  have attr_books : (Function.update shelf attrCatName (some ac1) attrCatName).map HeldFile.books =
      (shelf attrCatName).map HeldFile.books := by
    rw [Function.update_self,attrLists.present,Option.map_some,Option.map_some,books1]
  rw [asked,ok_bind]
  dsimp only
  by_cases undeclared : schema relation = none
  · have refused : Status.relNotFound ≠ .ok := Status.noConfusion
    rw [if_pos undeclared,if_pos refused,if_pos undeclared]
    refine ⟨_,Function.update shelf attrCatName (some ac1),rfl,?_,fun name => Nat.le_of_eq (lengths1 name),
      ⟨by rw [Function.update_of_ne (Ne.symm apart)],attr_books⟩,fun fine => absurd fine refused,?_⟩
    rotate_left
    · intro _ name
      by_cases here : name = attrCatName
      · have none_there := attrLists.rows_nil.mpr (Schema.attrRows_none undeclared)
        rw [here,Function.update_self,attrLists.present,Option.map_some,Option.map_some,rest1,← rows_none none_there,
          books1]
      · rw [Function.update_of_ne here]
    refine ⟨stands1,⟨rc,?_⟩,⟨ac1,?_⟩,catalogued.declared,catalogued.catalogs,?_,?_⟩
    · exact rels.elsewhere (Function.update_of_ne (Ne.symm apart) ..)
    · exact attrLists.lose (Function.update_self ..) rest1 (fun _ _ => rfl) (Schema.attrRows_none undeclared)
    · intro other there
      have not_cat : other ≠ attrCatName := fun cat => catalogued.catalogs.2 (cat ▸ there)
      rw [Db.setPool_other b1 not_cat]
      exact catalogued.missing other there
    · intro other there other_rel other_attr
      rw [Function.update_of_ne other_attr]
      exact catalogued.closed other there other_rel other_attr
  rw [if_neg undeclared,if_neg (not_not_intro rfl),if_neg undeclared]
  obtain ⟨attrs,declared⟩ := Option.ne_none_iff_exists'.mp undeclared
  have at_rel1 : Function.update shelf attrCatName (some ac1) relCatName = some rc := by
    rw [Function.update_of_ne (Ne.symm apart)]
    exact rels.present
  have listed := rels.rows relation
  rw [Schema.relRows,declared,Option.elim_some] at listed
  obtain ⟨e,single,_⟩ := List.map_eq_singleton_iff.mp listed
  obtain ⟨b2,heap2,recCnt2,removed,holds2,without,length2⟩ :=
    RelCatalog.removeInfo_spec (stands1 _ rc at_rel1) clean given single
  have lengths2 := Db.lengths_setPool length2
  have stands2 := stands1.put ⟨rc.books,heap2,recCnt2⟩ holds2
  rw [removed,ok_bind]
  dsimp only
  rw [if_neg (not_not_intro rfl)]
  obtain ⟨own,there,closed⟩ := catalogued.closed relation undeclared not_rel not_attr
  have at_own : Function.update (Function.update shelf attrCatName (some ac1)) relCatName
    (some ⟨rc.books,heap2,recCnt2⟩) relation =
      some own := by
    rw [Function.update_of_ne not_rel,Function.update_of_ne not_attr]
    exact there
  rw [Db.destroyHeapFile_closed given (stands2 _ own at_own) closed]
  have gone : Left shelf (Function.update (Function.update (Function.update shelf attrCatName (some ac1)) relCatName
      (some ⟨rc.books,heap2,recCnt2⟩)) relation none) relation := by
    constructor
    · intro file present
      cases Option.some.inj (present.symm.trans rels.present)
      refine ⟨⟨rc.books,heap2,recCnt2⟩,?_,without.only single (catalogued.stands.keys_nodup rels.present)⟩
      rw [Function.update_of_ne (Ne.symm not_rel)]
      exact Function.update_self ..
    · intro file present
      cases Option.some.inj (present.symm.trans attrLists.present)
      refine ⟨ac1,?_,rest1⟩
      rw [Function.update_of_ne (Ne.symm not_attr),Function.update_of_ne apart]
      exact Function.update_self ..
  have beside : ∀ other, other ≠ relation → other ≠ relCatName → other ≠ attrCatName →
      Function.update (Function.update (Function.update shelf attrCatName (some ac1)) relCatName
        (some ⟨rc.books,heap2,recCnt2⟩)) relation none other = shelf other := by
    intro other here other_rel other_attr
    rw [Function.update_of_ne here,Function.update_of_ne other_rel,Function.update_of_ne other_attr]
  refine ⟨_,_,rfl,catalogued.left (stands2.remove relation) gone not_rel not_attr (Function.update_self ..) ?_,?_,?_,
    fun _ => ⟨gone,beside⟩,fun refused => absurd rfl refused⟩
  · intro other here other_rel other_attr
    refine ⟨?_,beside other here other_rel other_attr⟩
    refine (Function.update_of_ne here ..).trans ?_
    rw [Db.setPool_other _ other_rel,Db.setPool_other _ other_attr]
  · intro name
    rw [← lengths1 name,← lengths2 name]
    exact Db.length_remove name
  · constructor
    · rw [Function.update_of_ne (Ne.symm not_rel),Function.update_self,rels.present]
      rfl
    · rw [Function.update_of_ne (Ne.symm not_attr),Function.update_of_ne apart]
      exact attr_books

theorem destroyRel_spec (catalogued : Catalogued db shelf schema) (clean : 0 ∉ relation) :
    ∃ db' shelf', RelCatalog.destroyRel db relation = .ok ((schema.destroy relation).1,db') ∧
      Catalogued db' shelf' (schema.destroy relation).2 ∧
        ((schema.destroy relation).1 = .ok → Left shelf shelf' relation) := by
  obtain ⟨db',shelf',asked,after,_,_,fine,_⟩ := catalogued.destroyRel_effect clean
  exact ⟨db',shelf',asked,after,fun ok => (fine ok).1⟩

end Catalogued

-- A relation that is created and destroyed again leaves the catalogs as they were, record for record.
theorem Entered.left {shelf'' : Shelf} (entered : Entered shelf shelf' relation attrs)
    (left : Left shelf' shelf'' relation)
    (named : Fits relation) (stands : db'.Stands shelf') (catalogued : Catalogued db shelf schema)
    (undeclared : schema relation = none)
    {catalog : Name} (either : catalog = relCatName ∨ catalog = attrCatName) :
    ∃ file file'', shelf catalog = some file ∧ shelf'' catalog = some file'' ∧
      records file''.heap = records file.heap := by
  rcases either with rfl | rfl
  · obtain ⟨rc,rels⟩ := catalogued.relCat
    obtain ⟨rc',there',gains⟩ := entered.relCat rc rels.present
    obtain ⟨rc'',there'',rest⟩ := left.relCat rc' there'
    refine ⟨rc,rc'',rels.present,there'',rest.trans (gains.lost (stands.keys_nodup there') ?_ ?_)⟩
    · intro row member
      rw [List.mem_singleton.mp member]
      exact Schema.ofRelation_relDesc named
    · exact rels.rows_nil.mpr (Schema.relRows_none undeclared)
  · obtain ⟨ac,attrLists⟩ := catalogued.attrCat
    obtain ⟨ac',there',gains⟩ := entered.attrCat ac attrLists.present
    obtain ⟨ac'',there'',rest⟩ := left.attrCat ac' there'
    refine ⟨ac,ac'',attrLists.present,there'',rest.trans (gains.lost (stands.keys_nodup there') ?_ ?_)⟩
    · intro row member
      obtain ⟨d,inside,rfl⟩ := List.mem_map.mp member
      have rel := (Schema.mem_description inside).1
      exact rel ▸ Schema.ofRelation_attrDesc (rel ▸ named)
    · exact attrLists.rows_nil.mpr (Schema.attrRows_none undeclared)

end Minirel
