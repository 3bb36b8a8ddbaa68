import Minirel.CatalogGrowth
import Minirel.Destroy

namespace Minirel
open ByteMemory SlotDirectory Page Heap Db

variable {db db' : Db} {shelf : Shelf} {schema : Schema} {relation : Name} {attrs : List AttrInfo}

-- The Unix file has its own header, that of the heap file and the one page.
theorem created_length (stale : Int → Page) (name : Name) :
    ((Pool.created stale).createHeapFile name).map (fun r => r.2.file.length) = .ok 3 := rfl

theorem Db.createHeapFile_length {name : Name} (named : name ≠ []) (missing : db.files name = none) (r : Status × Db)
    (created : db.createHeapFile name = .ok r) : r.2.length name = 3 := by
  have closed : db.openFile name = (.unixErr,db) := by rw [openFile,if_neg named,missing]
  have made : db.createFile name = (.ok,db.setPool name ⟨File.create,fun _ => none,0,db.stale name,[]⟩) := by
    rw [createFile,if_neg named,missing]
  have opened : (db.setPool name ⟨File.create,fun _ => none,0,db.stale name,[]⟩).openFile name =
      (.ok,db.setPool name (Pool.created (db.stale name))) := by
    rw [openFile_found named (setPool_same ..),setPool_setPool]
    rfl
  have three := created_length (db.stale name) name
  rw [createHeapFile,closed] at created
  dsimp only at created
  rw [made] at created
  dsimp only at created
  rw [opened] at created
  dsimp only at created
  rw [pool_setPool,ok_bind] at created
  obtain ⟨q,ran,rest⟩ := of_bind_ok created
  rw [ran] at three
  cases rest
  rw [length_setPool]
  exact Except.ok.inj three

-- A relation that has come into the catalogs has an empty file of its own, and no other has been touched.
structure Added (shelf shelf' : Shelf) (relation : Name) (attrs : List AttrInfo) : Prop where
  entered : Entered shelf shelf' relation attrs
  own : ∃ hdr n, shelf' relation = some (Db.empty hdr n)
  beside : ∀ other, other ≠ relation → other ≠ relCatName → other ≠ attrCatName → shelf' other = shelf other
  books : SameCatalogBooks shelf shelf'

namespace Catalogued

-- The catalogs take a relation's rows when their files have room for a page for each.
theorem enter_room (catalogued : Catalogued db shelf schema) (named : Fits relation) (given : relation ≠ [])
    (some_attr : attrs ≠ [])
    (declarable : Schema.Declarable attrs) (undeclared : schema relation = none)
    (room_rel : db.length relCatName < 2 ^ 31)
    (room_attr : db.length attrCatName + attrs.length ≤ 2 ^ 31) :
    ∃ db' shelf', RelCatalog.enter db relation attrs = .ok (.ok,db') ∧
      Catalogued db' shelf' (Function.update schema relation (some attrs)) ∧ Added shelf shelf' relation attrs ∧
      ∀ name, db'.length name ≤ max 3 (db.length name + attrs.length) := by
  obtain ⟨rc,rels⟩ := catalogued.relCat
  obtain ⟨ac,attrLists⟩ := catalogued.attrCat
  have not_rel : relation ≠ relCatName := fun here => catalogued.catalogs.1 (here ▸ undeclared)
  have not_attr : relation ≠ attrCatName := fun here => catalogued.catalogs.2 (here ▸ undeclared)
  have apart : attrCatName ≠ relCatName := by decide
  have some_row : 1 ≤ attrs.length := List.length_pos_iff.mpr some_attr
  obtain ⟨status,db',entered,told⟩ := catalogued.enter_spec named given some_attr declarable undeclared
  obtain ⟨b1,rc1,added,gained_rel,bound1⟩ := addRow_grows (catalogued.stands.gained rels.present)
    (RelDesc.bytes_ne_nil ⟨relation,attrs.length⟩) (by rw [RelDesc.length_bytes]; decide) room_rel
  have at_attr : Function.update shelf relCatName (some rc1) attrCatName = some ac := by
    rw [Function.update_of_ne apart]
    exact attrLists.present
  have length_attr : (db.setPool relCatName b1).length attrCatName = db.length attrCatName :=
    (elsewhere_setPool db relCatName b1).length apart
  obtain ⟨db2,shelf2,attrs_added,beside,_,bound2⟩ := addAttributes_grows (gained_rel.stands.gained at_attr) relation 0
    (fun attr member => (declarable.attrNames attr member).1.2) (by rw [length_attr]; exact room_attr)
  rw [length_attr] at bound2
  have missing : db2.files relation = none := by
    rw [(beside relation not_attr).1,Db.setPool_other _ not_rel]
    exact catalogued.missing relation undeclared
  obtain ⟨b3,hdr,n,created,_⟩ := Db.createHeapFile_missing given missing
  have three := Db.createHeapFile_length given missing _ created
  have ran : RelCatalog.enter db relation attrs = .ok (.ok,db2.setPool relation b3) := by
    rw [RelCatalog.enter,RelCatalog.addInfo,added,ok_bind]
    dsimp only
    rw [if_neg (not_not_intro rfl),attrs_added,ok_bind]
    dsimp only
    rw [if_neg (not_not_intro rfl)]
    exact created
  rw [ran] at entered
  cases entered
  rcases told with failed | ⟨_,shelf',catalogued',rows_in,own,aside,books⟩
  · cases failed
  refine ⟨_,shelf',ran,catalogued',⟨rows_in,own,aside,books⟩,fun name => ?_⟩
  by_cases here : name = relation
  · rw [here,three]
    exact le_max_left ..
  refine le_trans ?_ (le_max_right ..)
  rw [(elsewhere_setPool db2 relation b3).length here]
  by_cases is_attr : name = attrCatName
  · rw [is_attr]
    exact bound2
  have untouched : db2.length name = (db.setPool relCatName b1).length name := by
    rw [Db.length,Db.length,(beside name is_attr).1]
  rw [untouched]
  by_cases is_rel : name = relCatName
  · rw [is_rel]
    omega
  · rw [(elsewhere_setPool db relCatName b1).length is_rel]
    omega

-- Then createRel does what it does to the schema.
theorem createRel_room (catalogued : Catalogued db shelf schema) (clean : 0 ∉ relation)
    (declarable : (schema.create relation attrs).1 = .ok → Schema.Declarable attrs)
    (room : (schema.create relation attrs).1 = .ok → db.length relCatName < 2 ^ 31 ∧
      db.length attrCatName + attrs.length ≤ 2 ^ 31) :
    ∃ db' shelf', RelCatalog.createRel db relation attrs = .ok ((schema.create relation attrs).1,db') ∧
      Catalogued db' shelf' (schema.create relation attrs).2 ∧
      ((schema.create relation attrs).1 ≠ .ok → shelf' = shelf ∧ ∀ name, shelf name ≠ none → db'.length name =
        db.length name) ∧
      ((schema.create relation attrs).1 = .ok → Added shelf shelf' relation attrs ∧
        ∀ name, shelf name ≠ none ∨ name = relation → db'.length name ≤ max 3 (db.length name + attrs.length)) := by
  have apart : attrCatName ≠ relCatName := by decide
  obtain ⟨db1,asked,catalogued1,cases⟩ := catalogued.createRel_cases clean attrs
  have stays : db1.Stays shelf db := by
    rcases asked with rfl | ⟨r,ran,rfl⟩
    · exact catalogued.stands.shelved.stays
    · exact RelCatalog.getInfo_stays catalogued.stands.shelved.stays relation ⟨[],0⟩ r ran
  rcases cases with ⟨ran,refused,same⟩ | ⟨ran,named,given,some_attr,undeclared,narrow,created⟩
  · refine ⟨db1,shelf,ran,?_,fun _ => ⟨rfl,fun name on => stays.length on⟩,fun fine => absurd fine refused⟩
    rw [same]
    exact catalogued1
  rw [created] at declarable room ⊢
  obtain ⟨room_rel,room_attr⟩ := room rfl
  obtain ⟨rc,rels⟩ := catalogued.relCat
  obtain ⟨ac,attrLists⟩ := catalogued.attrCat
  have on_rel : shelf relCatName ≠ none := by rw [rels.present]; exact Option.some_ne_none _
  have on_attr : shelf attrCatName ≠ none := by rw [attrLists.present]; exact Option.some_ne_none _
  obtain ⟨db',shelf',entered,catalogued',added,lengths⟩ :=
    catalogued1.enter_room named given some_attr (declarable rfl) undeclared
    (by rw [stays.length on_rel]; exact room_rel) (by rw [stays.length on_attr]; exact room_attr)
  refine ⟨db',shelf',ran.trans entered,catalogued',fun refused => absurd rfl refused,fun _ =>
    ⟨added,fun name either => ?_⟩⟩
  refine (lengths name).trans (max_le_max (Nat.le_refl 3) (Nat.add_le_add_right ?_ _))
  rcases either with on | rfl
  · exact (stays.length on).le
  · rw [Db.length,catalogued1.missing name undeclared]
    exact Nat.zero_le _

end Catalogued

-- UT_Load turns the catalogs away itself; then it only reads what is on the shelf.
theorem Registered.UT_Load_stays {shelf1 : Shelf} {base : Db} (registered : Registered db shelf schema)
    (clean : 0 ∉ relation)
    (stays : db.Stays shelf1 base) (off : relation ≠ relCatName → relation ≠ attrCatName → shelf1 relation = none)
    (turns : Nat) (fileName : Name)
    (file : Option DataFile) : Ends (fun r => r.2.Stays shelf1 base) (UT_Load turns db relation fileName file) := by
  unfold UT_Load
  split
  · exact .ok stays
  rename_i parm
  obtain ⟨given,parm⟩ := not_or.mp parm
  obtain ⟨_,parm⟩ := not_or.mp parm
  obtain ⟨not_rel,not_attr⟩ := not_or.mp parm
  cases file with
  | none => exact .ok stays
  | some fd =>
    dsimp only
    obtain ⟨b,asked,_⟩ := registered.relInfo clean given ⟨[],0⟩
    have stays1 := RelCatalog.getInfo_stays stays relation ⟨[],0⟩ _ asked
    rw [asked,ok_bind]
    dsimp only at stays1 ⊢
    generalize db.setPool relCatName b = db1 at stays1 ⊢
    cases there : schema relation with
    | none =>
      have refused : Status.relNotFound ≠ .ok := Status.noConfusion
      rw [if_pos rfl,if_pos refused]
      exact .ok stays1
    | some attrs =>
      rw [if_neg (Option.some_ne_none _),if_neg (not_not_intro rfl),Option.elim_some]
      dsimp only
      have unshelved := off not_rel not_attr
      refine (AttrCatalog.getRelInfo_stays stays1 relation).bind fun r listed => ?_
      obtain ⟨status2,attrs2,db2⟩ := r
      dsimp only
      split
      · exact .ok listed
      refine (newInsertFileScan_only db2 relation).bind fun r only => ?_
      obtain ⟨status3,iFile3,db3⟩ := r
      have opened := Stays.only listed unshelved only
      dsimp only
      split
      · exact .ok opened
      refine (Ends.any _).bind fun width _ => (loadLoop_stays opened unshelved _ width _ _ _).bind fun r loaded => ?_
      obtain ⟨status4,iFile4,db4⟩ := r
      dsimp only
      split
      · exact .ok loaded
      refine (deleteInsertFileScan_only db4 relation iFile4).bind fun db5 only => ?_
      have closed := Stays.only loaded unshelved only
      split <;> exact .ok closed

end Minirel
