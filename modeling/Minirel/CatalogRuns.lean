import Minirel.CatalogQueries
import Minirel.CatalogRoom

namespace Minirel
open ByteMemory SlotDirectory Page Heap Db Interp JoinNames

variable {db db' : Db} {shelf : Shelf} {base : Db} {schema : Schema} {relation : Name} {s s' : Interpreter}

namespace SoundCatalogs

theorem intact_of_stays (sound : SoundCatalogs db shelf schema) (stays : db'.Stays shelf base) : Intact db' := by
  obtain ⟨shelf',sound',_⟩ := sound.stays stays
  exact sound'.intact

theorem load (sound : SoundCatalogs db shelf schema) (clean : 0 ∉ relation) (turns : Nat) (fileName : Name)
    (file : Option DataFile) :
    Ends (fun r => Intact r.2) (UT_Load turns db relation fileName file) := fun r ended =>
  sound.intact_of_stays (sound.registered.UT_Load_stays clean sound.shelved.stays sound.off turns fileName file r ended)

end SoundCatalogs

-- The names that a statement has.
def Qual.names : Qual → List Name
  | .select selattr _ _ => [selattr.1,selattr.2]
  | .join joinattr1 _ joinattr2 => [joinattr1.1,joinattr1.2,joinattr2.1,joinattr2.2]

def Node.names : Node → List Name
  | .query relname attrlist qual => relname.toList ++ attrlist.flatMap (fun a => [a.1,a.2]) ++ (qual.elim [] Qual.names)
  | .insert relname attrlist => relname::attrlist.map Prod.fst
  | .delete relname qual => relname::qual.elim [] Qual.names
  | .create relname attrlist _ => relname::attrlist.map Prod.fst
  | .destroy relname => [relname]
  | .build relname attrname => [relname,attrname]
  | .drop relname attrname => relname::attrname.toList
  | .load relname _ => [relname]
  | .print relname => [relname]
  | .help relname => relname.toList

-- The relation that a statement writes to itself is no catalog, what a join makes of its names fits in
-- their arrays, and the files of the catalogs can grow. createRel, destroyRel and UT_Load have a guard.
def Node.SparesCatalogs (s : Interpreter) : Node → Prop
  | .query relname attrlist qual => (∀ r ∈ relname, r ≠ relCatName ∧ r ≠ attrCatName) ∧ Roomy s.db ∧
      ∀ joinattr1 op joinattr2, qual = some (.join joinattr1 op joinattr2) →
        ∀ name ∈ Numbering.names numbered increment s.counter [] (attrlist.map Prod.snd), Short name
  | .insert relname _ => relname ≠ relCatName ∧ relname ≠ attrCatName
  | .delete relname _ => relname ≠ relCatName ∧ relname ≠ attrCatName
  | .create .. => Roomy s.db
  | _ => True

theorem interpDelete_intact (setting : Setting) (sound : SoundCatalogs s.db shelf schema) (off : shelf relation = none)
    (qual : Option Qual) :
    Ends (fun s' => Intact s'.db) (interpDelete setting relation qual s) := by
  have deletes : ∀ attrName op type attrValue, Ends (fun r => Intact r.2)
      (QU_Delete setting.atof s.db relation attrName op type attrValue setting.attrDesc) :=
    fun attrName op type attrValue r deleted => sound.intact_of_stays
      (QU_Delete_stays sound.shelved.stays off _ _ op type _ _ r deleted)
  cases qual with
  | none => exact (deletes _ _ _ _).bind fun r intact => .ok intact
  | some qual =>
    cases qual with
    | select selattr op value => exact (Ends.any _).bind fun text _ => (deletes _ _ _ _).bind fun r intact => .ok intact
    | join joinattr1 op joinattr2 => exact .ok sound.intact

theorem interpCreate_intact (sound : SoundCatalogs s.db shelf schema) (roomy : Roomy s.db)
    {attrlist : List (Name × Int)} (named : Written relation)
    (written : ∀ a ∈ attrlist, Written a.1) (setting : Setting) (primattr : Option (Name × Int)) :
    Ends (fun s' => Intact s'.db) (interp setting (.create relation attrlist primattr) s) := by
  intro s' ran
  obtain ⟨arguments,made,ran⟩ := of_bind_ok ran
  cases arguments with
  | error refusal =>
    cases ran
    exact sound.intact
  | ok infos =>
    obtain ⟨few,columns⟩ := createArguments_columns written made
    obtain ⟨⟨status,db'⟩,created,ran⟩ := of_bind_ok ran
    cases ran
    exact sound.createColumns roomy named.2 few columns _ created

theorem interpInsert_intact (sound : SoundCatalogs s.db shelf schema) (off : shelf relation = none) (setting : Setting) (attrlist : List (Name × Value)) :
    Ends (fun s' => Intact s'.db) (interp setting (.insert relation attrlist) s) := by
  refine (Ends.any _).bind fun arguments _ => ?_
  cases arguments with
  | error refusal => exact .ok sound.intact
  | ok infos => exact (QU_Insert_stays sound.shelved.stays off _ _ infos).bind fun r inserted => .ok (sound.intact_of_stays inserted)

theorem interp_intact (setting : Setting) {n : Node} (intact : Intact s.db) (written : ∀ name ∈ n.names, Written name) (spares : n.SparesCatalogs s) :
    Ends (fun s' => Intact s'.db) (interp setting n s) := by
  obtain ⟨shelf,schema,sound⟩ := intact
  have shelved := sound.shelved.stays
  cases n with
  | query relname attrlist qual =>
    obtain ⟨target,roomy,fit⟩ := spares
    have named : ∀ a ∈ attrlist, ∀ name ∈ [a.1,a.2], Written name := fun a listed name member =>
      written name (List.mem_append_left _ (List.mem_append_right _ (List.mem_flatMap.mpr ⟨a,listed,member⟩)))
    exact interpQuery_intact setting sound roomy
      (fun r into => ⟨written r (List.mem_append_left _ (List.mem_append_left _ (Option.mem_toList.mpr into))),
        target r into⟩)
      (fun a listed => ⟨named a listed _ (List.mem_cons_self ..),named a listed _
        (List.mem_cons_of_mem _ (List.mem_singleton_self _))⟩) fit
  | insert relname attrlist => exact interpInsert_intact sound (sound.off spares.1 spares.2) setting attrlist
  | delete relname qual => exact interpDelete_intact setting sound (sound.off spares.1 spares.2) qual
  | create relname attrlist primattr =>
    exact interpCreate_intact sound spares (written relname (List.mem_cons_self ..))
      (fun a listed => written a.1 (List.mem_cons_of_mem _ (List.mem_map_of_mem listed))) setting primattr
  | destroy relname => exact (sound.destroyRel (written relname (List.mem_cons_self ..)).2).bind fun r intact => .ok intact
  | build relname attrname => exact .throw _
  | drop relname attrname => exact .throw _
  | load relname filename => exact (sound.load (written relname (List.mem_cons_self ..)).2 _ _ _).bind fun r intact => .ok intact
  | print relname => exact (UT_Print_stays shelved _ _).bind fun r printed => .ok (sound.intact_of_stays printed)
  | help relname => exact (RelCatalog.help_stays shelved _ _).bind fun r helped => .ok (sound.intact_of_stays helped)

-- Statements that are admitted, one after the other. What is found beside the database may be another
-- for each.
inductive Interpreted (admitted : Interpreter → Node → Prop) (s0 : Interpreter) : Interpreter → Prop where
  | start : Interpreted admitted s0 s0
  | statement {s s' : Interpreter} (setting : Setting) (n : Node) (before : Interpreted admitted s0 s)
      (written : ∀ name ∈ n.names, Written name)
      (may : admitted s n) (ran : interp setting n s = .ok s') : Interpreted admitted s0 s'

theorem Interpreted.intact {s0 : Interpreter} (reached : Interpreted (fun s n => n.SparesCatalogs s) s0 s)
    (intact : Intact s0.db) : Intact s.db := by
  induction reached with
  | start => exact intact
  | statement setting n before written may ran ih => exact interp_intact setting ih written may _ ran

-- What the rows of the catalogs say of each other and of the catalogs.
structure CatalogsAgree (rels : List RelDesc) (attrs : List AttrDesc) : Prop where
  counts : ∀ rd ∈ rels, rd.attrCnt = (attrs.filter fun d => d.relName = rd.relName).length
  offsets : ∀ rd ∈ rels, ∀ i d, (attrs.filter fun d => d.relName = rd.relName)[i]? = some d →
    d.attrOffset = (((attrs.filter fun d => d.relName = rd.relName).take i).map AttrDesc.attrLen).sum
  relCat : (rels.filter fun rd => rd.relName = relCatName) = [⟨relCatName,2⟩] ∧
    (attrs.filter fun d => d.relName = relCatName) = relCatAttributes
  attrCat : (rels.filter fun rd => rd.relName = attrCatName) = [⟨attrCatName,5⟩] ∧
    (attrs.filter fun d => d.relName = attrCatName) = attrCatAttributes

-- What scans of the two catalogs return.
def CatalogsConsistent (db : Db) : Prop := ∃ rels attrs, db.contents relCatName = .ok rels ∧
    db.contents attrCatName = .ok attrs ∧
  CatalogsAgree (rels.map RelDesc.ofBytes) (attrs.map AttrDesc.ofBytes)

theorem filter_rows {α : Type} {heap : Heap} (terminated : ∀ e ∈ records heap, ∃ relation, OfRelation relation e.2)
    (ofBytes : List UInt8 → α)
    (relName : α → Name) (same : ∀ row, relName (ofBytes row) = cstring row) (relation : Name) :
    (((records heap).map Prod.snd).map ofBytes).filter (fun d => relName d = relation) =
    ((rows heap relation).map Prod.snd).map ofBytes := by
  rw [List.map_map,List.map_map,List.filter_map,rows]
  refine congrArg _ (List.filter_congr fun e member => ?_)
  obtain ⟨own,long,named⟩ := terminated e member
  rw [Function.comp_apply,Function.comp_apply,same,named,decide_eq_decide]
  refine ⟨fun here => ⟨here ▸ long,here⟩,And.right⟩

theorem Schema.description_offsets (relation : Name) (attrs : List AttrInfo) {i : Nat} {d : AttrDesc}
    (there : (description relation attrs)[i]? = some d) : d.attrOffset =
    (((description relation attrs).take i).map AttrDesc.attrLen).sum := by
  have lens : ((description relation attrs).take i).map AttrDesc.attrLen = (attrs.take i).map AttrInfo.attrLen := by
    apply List.ext_getElem
    · simp [description]
    · simp [description]
  rw [lens]
  rw [description,List.getElem?_mapIdx] at there
  obtain ⟨attr,_,rfl⟩ := Option.map_eq_some_iff.mp there
  rfl

theorem SoundCatalogs.consistent (sound : SoundCatalogs db shelf schema) : CatalogsConsistent db := by
  obtain ⟨rc,rels⟩ := sound.registered.relCat
  obtain ⟨ac,attrLists⟩ := sound.registered.attrCat
  refine ⟨_,_,Db.contents_spec sound.registered.stands rels.present,Db.contents_spec sound.registered.stands
    attrLists.present,?_⟩
  have own_attrs : ∀ relation, (((records ac.heap).map Prod.snd).map AttrDesc.ofBytes).filter
    (fun d => d.relName = relation) =
      schema.described relation := by
    intro relation
    rw [filter_rows (sound.terminated _ ac attrLists.present) AttrDesc.ofBytes AttrDesc.relName (fun _ => rfl),
      ← sound.registered.attributes_described attrLists,attributes,List.map_map]
    rfl
  have own_rels : ∀ relation, (((records rc.heap).map Prod.snd).map RelDesc.ofBytes).filter
    (fun rd => rd.relName = relation) =
      (schema relation).elim [] fun attrs => [⟨relation,attrs.length⟩] := by
    intro relation
    rw [filter_rows (sound.terminated _ rc rels.present) RelDesc.ofBytes RelDesc.relName (fun _ => rfl),
      rels.rows,Schema.relRows]
    cases there : schema relation with
    | none => rfl
    | some attrs =>
      obtain ⟨named,_,_,declarable⟩ := sound.registered.declared relation attrs there
      rw [Option.elim_some,Option.elim_some,List.map_singleton,RelDesc.ofBytes_bytes named declarable.count]
  have declared : ∀ rd ∈ ((records rc.heap).map Prod.snd).map RelDesc.ofBytes, ∃ attrs, schema rd.relName =
      some attrs ∧ rd.attrCnt = attrs.length := by
    intro rd member
    have own : rd ∈ (schema rd.relName).elim [] fun attrs => [(⟨rd.relName,attrs.length⟩ : RelDesc)] := by
      rw [← own_rels]
      exact List.mem_filter.mpr ⟨member,decide_eq_true rfl⟩
    cases there : schema rd.relName with
    | none =>
      rw [there] at own
      cases own
    | some attrs =>
      rw [there] at own
      exact ⟨attrs,rfl,congrArg RelDesc.attrCnt (List.mem_singleton.mp own)⟩
  refine ⟨fun rd member => ?_,fun rd member i d there => ?_,?_,?_⟩
  · obtain ⟨attrs,there,count⟩ := declared rd member
    rw [own_attrs,Schema.described,there,count]
    simp [Schema.description]
  · obtain ⟨attrs,known,_⟩ := declared rd member
    rw [own_attrs,Schema.described,known] at there ⊢
    exact Schema.description_offsets _ _ there
  · rw [own_rels,own_attrs,Schema.described,sound.itself.1]
    exact ⟨rfl,by decide⟩
  · rw [own_rels,own_attrs,Schema.described,sound.itself.2]
    exact ⟨rfl,by decide⟩

theorem Building.sound {db0 : Db} {rk ak : Pool.Books} {n m : Int}
    (building : Building db0 db rk ak n m relRows attrRows) :
    ∃ shelf, SoundCatalogs db shelf Schema.start := by
  obtain ⟨shelf,registered,only⟩ := building.registered
  refine ⟨shelf,registered,?_,?_,?_,rfl,rfl⟩
  · intro name there
    obtain ⟨file,present⟩ := Option.ne_none_iff_exists'.mp there
    exact (only name file present).imp And.left And.left
  · intro name file there e member
    have rel_row : ∀ row ∈ relRows, ∃ relation, OfRelation relation row := fun row inside =>
      ((by decide : ∀ row ∈ relRows, OfRelation relCatName row ∨ OfRelation attrCatName row) row inside).elim
      (⟨_,·⟩) (⟨_,·⟩)
    have attr_row : ∀ row ∈ attrRows, ∃ relation, OfRelation relation row := fun row inside =>
      ((by decide : ∀ row ∈ attrRows, OfRelation relCatName row ∨ OfRelation attrCatName row) row inside).elim
      (⟨_,·⟩) (⟨_,·⟩)
    have inside := List.mem_map_of_mem (f:=Prod.snd) member
    rcases only name file there with ⟨_,rows,_⟩ | ⟨_,rows,_⟩
    · exact rel_row e.2 (rows ▸ inside)
    · exact attr_row e.2 (rows ▸ inside)
  · intro relation attrs there
    rcases Schema.start_cases relation with rfl | rfl | undeclared
    · cases there
      decide
    · cases there
      decide
    · rw [undeclared] at there
      cases there

-- What dbcreate leaves to the interpreter.
theorem start_sound {db0 : Db} (no_rel : db0.files relCatName = none) (no_attr : db0.files attrCatName = none) :
    ∃ db1 db2, dbcreate db0 = .ok db1 ∧ openCatalogs db1 = .ok db2 ∧ ∃ shelf, SoundCatalogs db2 shelf Schema.start := by
  obtain ⟨db1,hdr,hdr',n,m,built,building⟩ := dbcreate_spec no_rel no_attr
  obtain ⟨db2,opened,building2⟩ := openCatalogs_spec building
  exact ⟨db1,db2,built,opened,building2.sound⟩

theorem strncmp_same {name : Name} (clean : 0 ∉ name) (n : Nat) {row : List UInt8} (same : cstring row = name) :
    strncmp n row name = 0 := by
  induction n generalizing name row with
  | zero => rfl
  | succ n ih =>
    rw [strncmp]
    cases row with
    | nil =>
      subst same
      rfl
    | cons x rest =>
      by_cases ended : x = 0
      · subst ended
        subst same
        rfl
      · rw [cstring,List.takeWhile_cons_of_pos (by simpa using ended)] at same
        subst same
        rw [List.mem_cons,not_or] at clean
        rw [List.headD_cons,List.headD_cons,if_neg (not_not_intro rfl),if_neg ended]
        exact ih clean.2 rfl

-- What the user writes to have a relation's row deleted from relcat.
def strikeOut (relation : Name) : Node :=
    .delete relCatName (some (.select (relCatName,relNameWord) .eq (.string relation)))

-- It is accepted for every relation that is declared. relcat has no row of the relation any more, and
-- attrcat has what it had.
theorem strikeOut_spec (setting : Setting) (sound : SoundCatalogs s.db shelf schema) (clean : 0 ∉ relation)
    (declared : schema relation ≠ none) :
    ∃ db' rc', interp setting (strikeOut relation) s = .ok ⟨db',s.counter⟩ ∧
      db'.Stands (Function.update shelf relCatName (some rc')) ∧
      rows rc'.heap relation = [] ∧ Rows rc'.heap RelDesc.size ∧
        ∀ e ∈ records rc'.heap, ∃ other, OfRelation other e.2 := by
  obtain ⟨attrs,there⟩ := Option.ne_none_iff_exists'.mp declared
  obtain ⟨fits,_⟩ := sound.registered.declared relation attrs there
  obtain ⟨rc,rels⟩ := sound.registered.relCat
  obtain ⟨ac,attrLists⟩ := sound.registered.attrCat
  have desc : deleteDesc ac.heap relCatName relNameWord setting.attrDesc =
      ⟨relCatName,relNameWord,0,Datatype.string.code,32⟩ := by
    rw [deleteDesc,attrOf,sound.registered.attributes_described attrLists,Schema.described,sound.itself.1]
    rfl
  have condition : deleteCondition setting.atof (deleteDesc ac.heap relCatName relNameWord setting.attrDesc)
    .eq .string relation =
      ⟨0,32,.string,relation,.eq⟩ := by rw [desc]; rfl
  obtain ⟨deletes,_⟩ := QU_Delete_spec setting.atof sound.registered.stands attrLists.present attrLists.wide
    rels.present
    (by decide : 0 ∉ relCatName) (by decide : relNameWord ≠ []) .eq .string relation setting.attrDesc
  rw [condition] at deletes
  obtain ⟨db',rc',deleted,stands',_,left⟩ := deletes (show ¬ _ by simp)
  have kept : ∀ e ∈ records rc'.heap, e ∈ records rc.heap := fun e member => by
    rw [left] at member
    exact List.mem_of_mem_filter member
  refine ⟨db',rc',?_,stands',?_,fun e member => rels.wide e (kept e member),
    fun e member => sound.terminated _ rc rels.present e (kept e member)⟩
  · have text : Value.valueOf setting (.string relation) = .ok relation := if_pos (Nat.lt_trans fits.2 (by decide))
    rw [strikeOut]
    change ((Value.valueOf setting (.string relation)) >>= fun text => QU_Delete setting.atof s.db relCatName
      relNameWord .eq .string text
      setting.attrDesc >>= fun r => .ok {s with db := r.2}) = _
    rw [text,ok_bind,deleted]
    rfl
  · rw [rows,left,List.filter_filter,List.filter_eq_nil_iff]
    intro e member own
    obtain ⟨own,matched⟩ := Bool.and_eq_true_iff.mp own
    have wide := rels.wide e member
    have named := (of_decide_eq_true own).2
    refine of_decide_eq_true matched ?_
    rw [Condition.matchRec,if_neg (by rw [Record.of]; dsimp only; rw [wide]; decide),Record.of]
    dsimp only
    rw [Int.toNat_zero,List.drop_zero,Datatype.difference,strncmp_same clean _ named]
    rfl

-- The statement leaves the relation's attributes in attrcat.
theorem deleted_entry_disagrees (setting : Setting) (intact : Intact s.db) (written : Written relation)
    (known : ∃ rd db', RelCatalog.getInfo s.db relation ⟨[],0⟩ = .ok (.ok,rd,db')) :
    ∃ s', interp setting (strikeOut relation) s = .ok s' ∧
      (∃ rd db', RelCatalog.getInfo s'.db relation ⟨[],0⟩ = .ok (.relNotFound,rd,db')) ∧
      ∃ attrs db', AttrCatalog.getRelInfo s'.db relation = .ok (.ok,attrs,db') := by
  obtain ⟨shelf,schema,sound⟩ := intact
  obtain ⟨given,clean⟩ := written
  obtain ⟨b,asked,_⟩ := sound.registered.relInfo clean given ⟨[],0⟩
  have declared : schema relation ≠ none := by
    intro undeclared
    obtain ⟨rd,db',found⟩ := known
    rw [asked,if_pos undeclared] at found
    cases found
  obtain ⟨db',rc',struck,stands',none_left,wide',_⟩ := strikeOut_spec setting sound clean declared
  obtain ⟨ac,attrLists⟩ := sound.registered.attrCat
  refine ⟨_,struck,?_,?_⟩
  · obtain ⟨b',asked',_⟩ := RelCatalog.getInfo_spec (stands' _ rc' (Function.update_self ..)) wide' clean given ⟨[],0⟩
    rw [none_left] at asked'
    exact ⟨_,_,asked'⟩
  · have at_attr : Function.update shelf relCatName (some rc') attrCatName = some ac := by
      rw [Function.update_of_ne (by decide)]
      exact attrLists.present
    obtain ⟨b',listed,_⟩ := AttrCatalog.getRelInfo_spec (stands' _ ac at_attr) attrLists.wide clean given
    have some_listed : attributes ac.heap relation ≠ [] := by
      rw [sound.registered.attributes_described attrLists,Ne,sound.registered.described_nil]
      exact declared
    rw [if_neg some_listed] at listed
    exact ⟨_,_,listed⟩

theorem deleted_entry_disagrees_relCat : ∃ db1 db2 s', dbcreate emptyDirectory = .ok db1 ∧ openCatalogs db1 = .ok db2 ∧
    interp bareSetting (strikeOut relCatName) ⟨db2,0⟩ = .ok s' ∧
      (∃ rd db', RelCatalog.getInfo s'.db relCatName ⟨[],0⟩ = .ok (.relNotFound,rd,db')) ∧
      ∃ attrs db', AttrCatalog.getRelInfo s'.db relCatName = .ok (.ok,attrs,db') := by
  obtain ⟨db1,db2,built,opened,shelf,sound⟩ := @start_sound emptyDirectory rfl rfl
  obtain ⟨b,asked,_⟩ := sound.registered.relInfo (by decide : 0 ∉ relCatName) (by decide) ⟨[],0⟩
  obtain ⟨s',ran,told⟩ := deleted_entry_disagrees (s := ⟨db2,0⟩) bareSetting sound.intact
    (by decide : Written relCatName) ⟨_,_,asked⟩
  exact ⟨db1,db2,s',built,opened,ran,told⟩

end Minirel
